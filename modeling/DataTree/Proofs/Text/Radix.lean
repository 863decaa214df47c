import DataTree.Proofs.Text.Words
import DataTree.Text.Numeral
import Mathlib.Data.Nat.Digits.Defs

namespace DataTree.Text

def digitRow : List Char := "0123456789abcdef".toList

def digitValue (c : Char) : Nat := digitRow.idxOf c.toLower

/-- Digits of a base up to sixteen, in either case, and the number that they denote. -/
structure Denotes (base : Nat) (cs : List Char) (n : Nat) : Prop where
  nonempty : cs ≠ []
  digits : ∀ c ∈ cs, c.toLower ∈ digitRow.take base
  value : n = Nat.ofDigits base (cs.reverse.map digitValue)

variable {base bound n m : Nat} {c : Char} {cs : List Char}

theorem digit?_eq (hbase : base = 10 ∨ base = 16) (c : Char) :
    digit? base c = if c.toLower ∈ digitRow.take base then some (digitValue c) else none := by
  rcases Nat.lt_or_ge c.toNat 128 with hascii | hascii
  · rcases hbase with rfl | rfl
    · exact @ascii_forall (fun c => digit? 10 c = if c.toLower ∈ digitRow.take 10 then
        some (digitValue c) else none) (by decide +kernel) c hascii
    · exact @ascii_forall (fun c => digit? 16 c = if c.toLower ∈ digitRow.take 16 then
        some (digitValue c) else none) (by decide +kernel) c hascii
  · have hbeyond {d : Char} (hd : d.toNat < 128) : ¬ c ≤ d := fun hle =>
      Nat.not_lt_of_ge hascii (Nat.lt_of_le_of_lt hle hd)
    have hupper : ¬ c ≤ 'Z' := hbeyond (by decide)
    have hsame : c.toLower = c := dif_neg fun h => hupper h.2
    have hdigits : ∀ d ∈ digitRow, d.isAlphanum = true := List.all_eq_true.1 rfl
    have hmem : c ∉ digitRow.take base := fun h =>
      Nat.not_lt_of_ge hascii (toNat_lt_of_isAlphanum (hdigits c (List.mem_of_mem_take h)))
    rw [hsame, if_neg hmem, digit?, if_neg fun h => hbeyond (by decide) h.2,
      if_neg fun h => hbeyond (by decide) h.2, if_neg fun h => hbeyond (by decide) h.2]
    rfl

theorem denoted_eq_ofDigits (values : List Nat) (n : Nat) :
    denoted base n values = Nat.ofDigits base (values.reverse ++ [n]) := by
  induction values generalizing n with
  | nil => rw [List.reverse_nil, List.nil_append, Nat.ofDigits_singleton]; rfl
  | cons value values ih =>
      show denoted base (base * n + value) values = _
      rw [ih, List.reverse_cons, List.append_assoc, Nat.ofDigits_append, Nat.ofDigits_append]
      simp [Nat.ofDigits_cons, Nat.add_comm]

theorem digitsFrom_zero (hbase : base = 10 ∨ base = 16) (hbound : 0 < bound) (hne : cs ≠ []) :
    digitsFrom base bound 0 cs = .ok m ↔ Denotes base cs m ∧ m < bound := by
  have hvalue : denoted base 0 (cs.map digitValue) =
      Nat.ofDigits base (cs.reverse.map digitValue) := by
    rw [denoted_eq_ofDigits, Nat.ofDigits_append, List.map_reverse]
    simp
  rw [digitsFrom_eq_ok (digit?_eq hbase) (by omega) hbound, hvalue]
  exact ⟨fun ⟨hdigits, hm, hlt⟩ => ⟨⟨hne, hdigits, hm⟩, hlt⟩,
    fun ⟨h, hlt⟩ => ⟨h.digits, h.value, hlt⟩⟩

theorem Denotes.ne_plus (h : Denotes base (c :: cs) n) : c ≠ '+' := by
  rintro rfl
  have hmem : '+' ∈ digitRow := List.mem_of_mem_take (h.digits '+' List.mem_cons_self)
  exact absurd hmem (by decide)

theorem unsigned_eq_ok (hbase : base = 10 ∨ base = 16) (hbound : 0 < bound) :
    unsigned base bound cs = .ok m ↔
      (∃ sign ds, (sign = [] ∨ sign = ['+']) ∧ cs = sign ++ ds ∧ Denotes base ds m) ∧
        m < bound := by
  constructor
  · intro h
    unfold unsigned at h
    split at h
    case h_1 => cases h
    case h_2 => cases h
    case h_3 ds hne =>
      obtain ⟨hds, hlt⟩ := (digitsFrom_zero hbase hbound hne).1 h
      exact ⟨⟨['+'], ds, .inr rfl, rfl, hds⟩, hlt⟩
    case h_4 hne _ _ =>
      obtain ⟨hds, hlt⟩ := (digitsFrom_zero hbase hbound hne).1 h
      exact ⟨⟨[], cs, .inl rfl, rfl, hds⟩, hlt⟩
  · rintro ⟨⟨sign, ds, hsign, rfl, hds⟩, hlt⟩
    have hread := (digitsFrom_zero hbase hbound hds.nonempty).2 ⟨hds, hlt⟩
    obtain ⟨d, ds, rfl⟩ := List.exists_cons_of_ne_nil hds.nonempty
    rcases hsign with rfl | rfl
    · rw [List.nil_append, unsigned]
      · exact hread
      all_goals simp [hds.ne_plus]
    · exact hread

end DataTree.Text
