import DataTree.Text.Numeral
import Mathlib.Data.List.Basic

namespace DataTree.Text

variable {base bound n m : Nat} {cs : List Char}

theorem isDigit_bounds {c : Char} (h : c.isDigit = true) : 48 ≤ c.toNat ∧ c.toNat ≤ 57 := by
  rw [Char.isDigit, Bool.and_eq_true, decide_eq_true_iff, decide_eq_true_iff] at h
  exact h

theorem digit?_ten (c : Char) :
    digit? 10 c = if c.isDigit = true then some (c.toNat - '0'.toNat) else none := by
  by_cases h : c.isDigit = true
  · have hc : '0' ≤ c ∧ c ≤ '9' := isDigit_bounds h
    have hlt : c.toNat - '0'.toNat < 10 := by
      have hhigh := (isDigit_bounds h).2
      show c.toNat - 48 < 10
      omega
    rw [if_pos h, digit?, if_pos hc]
    simpa using hlt
  · have hc : ¬ ('0' ≤ c ∧ c ≤ '9') := fun hc =>
      h (Bool.and_eq_true_iff.2 ⟨decide_eq_true hc.1, decide_eq_true hc.2⟩)
    rw [if_neg h, digit?, if_neg hc]
    split
    · simp
    · split <;> simp

/-- The number that digits denote behind a number that has been read. -/
def denoted (base n : Nat) (values : List Nat) : Nat :=
  values.foldl (fun n value => base * n + value) n

theorem le_denoted (hbase : 0 < base) (values : List Nat) (n : Nat) :
    n ≤ denoted base n values := by
  induction values generalizing n with
  | nil => exact Nat.le_refl n
  | cons value values ih =>
      have hstep : n ≤ base * n + value :=
        Nat.le_add_right_of_le (Nat.le_mul_of_pos_left n hbase)
      exact Nat.le_trans hstep (ih _)

theorem digitsFrom_eq_ok {p : Char → Prop} [DecidablePred p] {value : Char → Nat}
    (hdigit : ∀ c, digit? base c = if p c then some (value c) else none) (hbase : 0 < base)
    (hn : n < bound) : digitsFrom base bound n cs = .ok m ↔
      (∀ c ∈ cs, p c) ∧ m = denoted base n (cs.map value) ∧ m < bound := by
  induction cs generalizing n with
  | nil =>
      refine ⟨fun h => ?_, fun h => congrArg _ h.2.1.symm⟩
      cases h
      exact ⟨List.forall_mem_nil _, rfl, hn⟩
  | cons c cs ih =>
      rw [digitsFrom, hdigit, List.forall_mem_cons, List.map_cons]
      by_cases hc : p c
      · rw [if_pos hc]
        dsimp only
        by_cases hlt : base * n + value c < bound
        · rw [if_pos hlt, and_iff_right hc]
          exact ih hlt
        · have hle := le_denoted hbase (cs.map value) (base * n + value c)
          rw [if_neg hlt]
          refine ⟨fun h => (by cases h), ?_⟩
          rintro ⟨-, rfl, hm⟩
          exact absurd (Nat.lt_of_le_of_lt hle hm) hlt
      · simp [hc]

theorem denoted_ten (cs : List Char) (n : Nat) :
    denoted 10 n (cs.map fun c => c.toNat - '0'.toNat) = Nat.ofDigitChars 10 cs n :=
  List.foldl_map

theorem digitsFrom_ten (hcs : ∀ c ∈ cs, c.isDigit = true) (hn : n < bound) :
    digitsFrom 10 bound n cs = .ok m ↔ m = Nat.ofDigitChars 10 cs n ∧ m < bound := by
  rw [digitsFrom_eq_ok digit?_ten (by decide) hn, and_iff_right hcs, denoted_ten]

theorem toOption_digitsFrom (hcs : ∀ c ∈ cs, c.isDigit = true) (hn : n < bound) :
    (digitsFrom 10 bound n cs).toOption =
      if Nat.ofDigitChars 10 cs n < bound then some (Nat.ofDigitChars 10 cs n) else none := by
  split
  next hlt => rw [(digitsFrom_ten hcs hn).2 ⟨rfl, hlt⟩]; rfl
  next hlt =>
    cases hread : digitsFrom 10 bound n cs with
    | error fault => rfl
    | ok m =>
        obtain ⟨rfl, hm⟩ := (digitsFrom_ten hcs hn).1 hread
        exact absurd hm hlt

theorem digitsFrom_toDigits (h : n < bound) :
    digitsFrom 10 bound 0 (Nat.toDigits 10 n) = .ok n := by
  have hdigits : ∀ c ∈ Nat.toDigits 10 n, c.isDigit = true := fun c hc =>
    Nat.isDigit_of_mem_toDigits (by decide) (by decide) hc
  have hvalue : Nat.ofDigitChars 10 (Nat.toDigits 10 n) 0 = n := Nat.ofDigitChars_ten_toDigits
  exact (digitsFrom_ten hdigits (Nat.zero_lt_of_lt h)).2 ⟨hvalue.symm, h⟩

theorem toDigits_eq_cons (n : Nat) :
    ∃ c cs, Nat.toDigits 10 n = c :: cs ∧ c.isDigit = true := by
  cases h : Nat.toDigits 10 n with
  | nil => exact absurd h Nat.toDigits_ne_nil
  | cons c cs =>
      refine ⟨c, cs, rfl, Nat.isDigit_of_mem_toDigits (b := 10) (n := n) (by decide) (by decide) ?_⟩
      rw [h]
      exact List.mem_cons_self

theorem unsigned_toDigits (h : n < bound) :
    unsigned 10 bound (Nat.toDigits 10 n) = .ok n := by
  obtain ⟨c, cs, hcons, hc⟩ := toDigits_eq_cons n
  have hplus : c ≠ '+' := by
    rintro rfl
    cases hc
  have hread := digitsFrom_toDigits h
  rw [hcons] at hread ⊢
  rw [unsigned]
  · exact hread
  all_goals simp [hplus]

theorem toList_toString_ofNat (n : Nat) : (toString (Int.ofNat n)).toList = Nat.toDigits 10 n :=
  Nat.toList_repr

theorem toList_toString_negSucc (n : Nat) :
    (toString (Int.negSucc n)).toList = '-' :: Nat.toDigits 10 (n + 1) := by
  show ("-" ++ Nat.repr (n + 1)).toList = _
  rw [String.toList_append, Nat.toList_repr]
  rfl

theorem signed64?_toString {i : Int} (hlow : -0x8000000000000000 ≤ i)
    (hhigh : i < 0x8000000000000000) : signed64? (toString i).toList = some i := by
  cases i with
  | ofNat n =>
      have hn : n < 0x8000000000000000 := by
        have : (n : Int) < 0x8000000000000000 := hhigh
        omega
      obtain ⟨c, cs, hcons, hc⟩ := toDigits_eq_cons n
      have hread := unsigned_toDigits hn
      rw [hcons] at hread
      rw [toList_toString_ofNat, hcons, signed64?, hread]
      · rfl
      · intro d ds h
        cases h
        cases hc
  | negSucc n =>
      have hn : n + 1 < 0x8000000000000001 := by omega
      obtain ⟨c, cs, hcons, -⟩ := toDigits_eq_cons (n + 1)
      have hread := digitsFrom_toDigits hn
      rw [hcons] at hread
      rw [toList_toString_negSucc, hcons, signed64?, hread]
      rfl

/-- Decimal digits with a sign or none, and the whole number that they denote. -/
inductive Numeral : List Char → Int → Prop
  | unsigned {c : Char} {cs : List Char} : (∀ d ∈ c :: cs, d.isDigit = true) →
      Numeral (c :: cs) (Nat.ofDigitChars 10 (c :: cs) 0)
  | plus {c : Char} {cs : List Char} : (∀ d ∈ c :: cs, d.isDigit = true) →
      Numeral ('+' :: c :: cs) (Nat.ofDigitChars 10 (c :: cs) 0)
  | minus {c : Char} {cs : List Char} : (∀ d ∈ c :: cs, d.isDigit = true) →
      Numeral ('-' :: c :: cs) (-(Nat.ofDigitChars 10 (c :: cs) 0 : Int))

theorem signed64?_numeral {cs : List Char} {n : Int} (h : Numeral cs n) :
    signed64? cs =
      if -0x8000000000000000 ≤ n ∧ n < 0x8000000000000000 then some n else none := by
  have hnonneg {c : Char} {cs : List Char} (hcs : ∀ d ∈ c :: cs, d.isDigit = true) :
      (digitsFrom 10 0x8000000000000000 0 (c :: cs)).toOption.map (fun n => (n : Int)) =
        if -0x8000000000000000 ≤ (Nat.ofDigitChars 10 (c :: cs) 0 : Int) ∧
          (Nat.ofDigitChars 10 (c :: cs) 0 : Int) < 0x8000000000000000
        then some (Nat.ofDigitChars 10 (c :: cs) 0 : Int) else none := by
    rw [toOption_digitsFrom hcs (by decide)]
    split
    next hlt => rw [if_pos (by omega)]; rfl
    next hlt => rw [if_neg (by omega)]; rfl
  cases h with
  | @unsigned c cs hcs =>
      have hc := hcs c List.mem_cons_self
      have hne {d : Char} (hd : d.isDigit = false) : c ≠ d := by
        rintro rfl
        cases hc.symm.trans hd
      rw [← hnonneg hcs, signed64?, unsigned]
      all_goals simp [hne (d := '+') rfl, hne (d := '-') rfl]
  | @plus c cs hcs => exact hnonneg hcs
  | @minus c cs hcs =>
      rw [signed64?, toOption_digitsFrom hcs (by decide)]
      split
      next hlt => rw [if_pos (by omega)]; rfl
      next hlt => rw [if_neg (by omega)]; rfl

end DataTree.Text
