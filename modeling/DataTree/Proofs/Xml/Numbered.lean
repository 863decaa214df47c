import DataTree.Proofs.Text.Radix
import DataTree.Proofs.Xml.Scanning

namespace DataTree.Xml

namespace Reference

/-- The digits of a numeric reference, behind `sign`, denote `code`. -/
inductive Numbers (sign : List Char) : List Char → Nat → Prop
  | decimal {digits : List Char} {code : Nat} : Text.Denotes 10 digits code →
      Numbers sign ('#' :: (sign ++ digits)) code
  | hexadecimal {x : Char} {digits : List Char} {code : Nat} : x = 'x' ∨ x = 'X' →
      Text.Denotes 16 digits code → Numbers sign ('#' :: x :: (sign ++ digits)) code

/-- A numeric reference with a plus sign in front of its digits or none. -/
def Reads (raw : List Char) (code : Nat) : Prop :=
  ∃ sign, (sign = [] ∨ sign = ['+']) ∧ Numbers sign raw code

variable {sign digits rest : List Char} {bound code code' : Nat}

/-- What stands behind the number sign, as a number below a bound. -/
def number (bound : Nat) (rest : List Char) : Except Text.NumeralFault Nat :=
  match rest with
  | 'x' :: hex => Text.unsigned 16 bound hex
  | 'X' :: hex => Text.unsigned 16 bound hex
  | _ => Text.unsigned 10 bound rest

theorem number_decimal (hsign : sign = [] ∨ sign = ['+']) (h : Text.Denotes 10 digits code) :
    number bound (sign ++ digits) = Text.unsigned 10 bound (sign ++ digits) := by
  obtain ⟨d, digits, rfl⟩ := List.exists_cons_of_ne_nil h.nonempty
  have hd : d.toLower ∈ Text.digitRow.take 10 := h.digits d List.mem_cons_self
  -- an x is no decimal digit, and no sign either
  have hne {x : Char} (hx : x = 'x' ∨ x = 'X') (hex : List Char) :
      sign ++ d :: digits ≠ x :: hex := by
    intro heq
    rcases hsign with rfl | rfl
    · obtain rfl := (List.cons.inj heq).1
      revert hd
      rcases hx with rfl | rfl <;> decide
    · obtain rfl := (List.cons.inj heq).1
      rcases hx with hx | hx <;> cases hx
  unfold number
  split
  next heq => exact absurd heq (hne (.inl rfl) _)
  next heq => exact absurd heq (hne (.inr rfl) _)
  next => rfl

theorem number_eq_ok (hbound : 0 < bound) :
    number bound rest = .ok code ↔ Reads ('#' :: rest) code ∧ code < bound := by
  constructor
  · intro h
    unfold number at h
    split at h
    case h_1 hex =>
      obtain ⟨⟨sign, ds, hsign, rfl, hds⟩, hlt⟩ := (Text.unsigned_eq_ok (.inr rfl) hbound).1 h
      exact ⟨⟨sign, hsign, .hexadecimal (.inl rfl) hds⟩, hlt⟩
    case h_2 hex =>
      obtain ⟨⟨sign, ds, hsign, rfl, hds⟩, hlt⟩ := (Text.unsigned_eq_ok (.inr rfl) hbound).1 h
      exact ⟨⟨sign, hsign, .hexadecimal (.inr rfl) hds⟩, hlt⟩
    case h_3 =>
      obtain ⟨⟨sign, ds, hsign, rfl, hds⟩, hlt⟩ := (Text.unsigned_eq_ok (.inl rfl) hbound).1 h
      exact ⟨⟨sign, hsign, .decimal hds⟩, hlt⟩
  · rintro ⟨⟨sign, hsign, hnumbers⟩, hlt⟩
    cases hnumbers with
    | decimal hds =>
        rw [number_decimal hsign hds]
        exact (Text.unsigned_eq_ok (.inl rfl) hbound).2 ⟨⟨sign, _, hsign, rfl, hds⟩, hlt⟩
    | @hexadecimal x digits _ hx hds =>
        have hread : Text.unsigned 16 bound (sign ++ digits) = .ok code :=
          (Text.unsigned_eq_ok (.inr rfl) hbound).2 ⟨⟨sign, _, hsign, rfl, hds⟩, hlt⟩
        rcases hx with rfl | rfl
        · exact hread
        · exact hread

theorem Reads.unique (h : Reads ('#' :: rest) code) (h' : Reads ('#' :: rest) code') :
    code = code' := by
  have hbound : 0 < max code code' + 1 := Nat.succ_pos _
  have hread := (number_eq_ok hbound).2 ⟨h, Nat.lt_succ_of_le (Nat.le_max_left _ _)⟩
  have hread' := (number_eq_ok hbound).2 ⟨h', Nat.lt_succ_of_le (Nat.le_max_right _ _)⟩
  exact Except.ok.inj (hread.symm.trans hread')

theorem predefined?_number (rest : List Char) : predefined? ('#' :: rest) = none := by
  have hnames : ∀ entry ∈ predefined, entry.1.toList.head? ≠ some '#' := by decide
  rw [predefined?, List.lookup_eq_none_iff]
  intro entry hentry
  rw [bne_iff_ne]
  intro heq
  exact hnames entry hentry (by rw [← heq, String.toList_ofList]; rfl)

theorem resolve_number (rest : List Char) : resolve ('#' :: rest) =
    match number 0x100000000 rest with
    | .error _ => .error (.characterReference (String.ofList ('#' :: rest)))
    | .ok code =>
      match character? code with
      | some c => .ok [c]
      | none => .error (.codePoint code) := by
  unfold resolve
  rw [predefined?_number]
  rfl

theorem resolve_of_reads (h : Reads ('#' :: rest) code) : resolve ('#' :: rest) =
    if code.isValidChar then .ok [Char.ofNat code]
    else if code < 0x100000000 then .error (.codePoint code)
    else .error (.characterReference (String.ofList ('#' :: rest))) := by
  have hbound : 0 < 0x100000000 := by decide
  rw [resolve_number]
  cases hnumber : number 0x100000000 rest with
  | ok code' =>
      obtain ⟨hreads, hlt⟩ := (number_eq_ok hbound).1 hnumber
      obtain rfl := h.unique hreads
      dsimp only
      rw [character?, if_pos hlt]
      by_cases hvalid : code.isValidChar
      · rw [if_pos hvalid, if_pos hvalid]
      · rw [if_neg hvalid, if_neg hvalid]
  | error fault =>
      have hge : ¬ code < 0x100000000 := fun hlt => by
        cases hnumber.symm.trans ((number_eq_ok hbound).2 ⟨h, hlt⟩)
      have hvalid : ¬ code.isValidChar := by
        rw [Nat.isValidChar]
        omega
      rw [if_neg hvalid, if_neg hge]

theorem resolve_of_not_reads (h : ∀ code, ¬ Reads ('#' :: rest) code) :
    resolve ('#' :: rest) = .error (.characterReference (String.ofList ('#' :: rest))) := by
  have hbound : 0 < 0x100000000 := by decide
  rw [resolve_number]
  cases hnumber : number 0x100000000 rest with
  | ok code => exact absurd ((number_eq_ok hbound).1 hnumber).1 (h code)
  | error fault => rfl

end Reference

namespace Document

open Reference (Reads)

theorem resolved_ofChars (raw : List Char) : resolved (Symbols.ofChars raw) =
    ((Reference.resolve raw).mapError Error.parse).map String.ofList := by
  rw [resolved, decoded, Symbols.decode_ofChars]
  show ((Reference.resolve (String.ofList raw).toList).mapError Error.parse >>= _) = _
  rw [String.toList_ofList]
  cases Reference.resolve raw <;> rfl

/-- A reference that begins with a number sign is read as the character of the number that its
digits denote, or refused. -/
theorem numeric_references (rest : List Char) :
    let raw := '#' :: rest
    (∀ text, resolved (Symbols.ofChars raw) = .ok text ↔
      ∃ code, Reads raw code ∧ code.isValidChar ∧ text = String.ofList [Char.ofNat code]) ∧
    (∀ code, Reads raw code → ¬ code.isValidChar → resolved (Symbols.ofChars raw) =
      .error (.parse (if code < 0x100000000 then .codePoint code
        else .characterReference (String.ofList raw)))) ∧
    ((∀ code, ¬ Reads raw code) → resolved (Symbols.ofChars raw) =
      .error (.parse (.characterReference (String.ofList raw)))) := by
  intro raw
  rw [resolved_ofChars]
  refine ⟨fun text => ⟨fun h => ?_, ?_⟩, fun code hreads hvalid => ?_, fun h => ?_⟩
  · by_cases hreads : ∃ code, Reads raw code
    · obtain ⟨code, hreads⟩ := hreads
      rw [Reference.resolve_of_reads hreads] at h
      by_cases hvalid : code.isValidChar
      · rw [if_pos hvalid] at h
        exact ⟨code, hreads, hvalid, (Except.ok.inj h).symm⟩
      · rw [if_neg hvalid] at h
        split at h <;> cases h
    · rw [Reference.resolve_of_not_reads fun code h => hreads ⟨code, h⟩] at h
      cases h
  · rintro ⟨code, hreads, hvalid, rfl⟩
    rw [Reference.resolve_of_reads hreads, if_pos hvalid]
    rfl
  · rw [Reference.resolve_of_reads hreads, if_neg hvalid]
    split <;> rfl
  · rw [Reference.resolve_of_not_reads h]
    rfl

/-- A plus sign is no part of a numeric reference. It is passed over in text, and refused in the
value of an attribute. -/
theorem plus_sign_passed_over :
    resolved (Symbols.ofText "#+65") = .ok "A" ∧
      (∀ code, ¬ Reference.Numbers [] "#+65".toList code) ∧
      Reference.character 1 "#+65".toList = .error (.character .signed) := by
  refine ⟨rfl, ?_, rfl⟩
  intro code h
  cases h with
  | decimal hdigits => exact hdigits.ne_plus rfl
  | hexadecimal hx => rcases hx with hx | hx <;> cases hx

end Document

end DataTree.Xml
