import DataTree.Proofs.Xml.Leaf

namespace DataTree

/-- A text that is a numeral but for white space around it. -/
def Text.Spells (s : String) (n : Int) : Prop :=
  ∃ front cs back, s.toList = front ++ cs ++ back ∧ (∀ c ∈ front, isBlank c = true) ∧
    (∀ c ∈ back, isBlank c = true) ∧ Numeral cs n

theorem Text.Spells.numeral {s : String} {n : Int} (h : Spells s n) :
    Numeral (trimChars s.toList) n := by
  obtain ⟨front, cs, back, hs, hfront, hback, hcs⟩ := h
  rwa [hs, hcs.solid.trimChars_between hfront hback]

namespace Xml.Node

open Text (Numeral Spells)

variable {s : String} {n : Int}

theorem ne_empty_of_spells (h : Spells s n) : s ≠ "" := by
  rintro rfl
  cases h.numeral

theorem parseScalar_spelled_int (h : Spells s n) (hn : IntType.int64.Holds n) :
    parseScalar s .int = .int (Int64.ofInt n) := by
  obtain ⟨hlow, hhigh⟩ := hn
  have hfits : -0x8000000000000000 ≤ n ∧ n < 0x8000000000000000 := by
    have hlow : -0x8000000000000000 ≤ n := hlow
    have hhigh : n ≤ 0x7fffffffffffffff := hhigh
    omega
  rw [parseScalar]
  simp only [Text.signed64?_numeral h.numeral, if_pos hfits]
  rfl

theorem parseScalar_spelled_double (h : Spells s n) {hint : ScalarKind}
    (hh : hint = .double ∨ hint = .int ∧ ¬ IntType.int64.Holds n) :
    ∃ x : Double, parseScalar s hint = .double x ∧
      x.number? = (Binary.ofInt n : Double).number? := by
  obtain ⟨x, hx, hnumber⟩ := Decimal.float?_numeral h.numeral
  refine ⟨x, ?_, hnumber⟩
  rcases hh with rfl | ⟨rfl, hn⟩
  · rw [parseScalar]
    simp only [hx]
    rfl
  · have hlarge : ¬ (-0x8000000000000000 ≤ n ∧ n < 0x8000000000000000) := by
      rintro ⟨hlow, hhigh⟩
      refine hn ⟨hlow, ?_⟩
      show n ≤ 0x7fffffffffffffff
      omega
    rw [parseScalar]
    simp only [Text.signed64?_numeral h.numeral, if_neg hlarge, hx]
    rfl

theorem toInt_ofInt_of_holds (h : IntType.int64.Holds n) : (Int64.ofInt n).toInt = n :=
  int64?_eq_some (if_pos h)

/-- A numeral is read as what it denotes exactly where an integer type reads an engine integer, or
where a double is that number. Everywhere else another number is read, if any. -/
theorem readLeaf_numeral {p : Primitive} (hp : p.Numeric) (hs : Spells s n) {node : Node}
    (hnode : Bears s node) {x : p.Carrier} (h : readLeaf p node = .ok x) :
    p.number? x = some (n : ℚ) ↔
      (p.hint = .int ∧ IntType.int64.Holds n) ∨ ∃ d : Double, d.number? = some (n : ℚ) := by
  rw [readLeaf, scalar_bears (ne_empty_of_spells hs) hnode] at h
  change p.ofScalar (.leaf (parseScalar s p.hint)) = .ok x at h
  by_cases hengine : p.hint = .int ∧ IntType.int64.Holds n
  · obtain ⟨hint, hn⟩ := hengine
    rw [hint, parseScalar_spelled_int hs hn] at h
    rw [Primitive.number?_of_int hp h, toInt_ofInt_of_holds hn]
    exact iff_of_true rfl (.inl ⟨hint, hn⟩)
  · have hdouble : p.hint = .double ∨ p.hint = .int ∧ ¬ IntType.int64.Holds n :=
      hp.symm.imp_right fun hint => ⟨hint, fun hn => hengine ⟨hint, hn⟩⟩
    obtain ⟨y, hy, hnumber⟩ := parseScalar_spelled_double hs hdouble
    rw [hy] at h
    rw [Primitive.number?_of_double hp h, hnumber, or_iff_right hengine]
    constructor
    · intro hexact
      exact ⟨_, hexact⟩
    · rintro ⟨d, hd⟩
      exact Binary.number?_ofInt (by decide) hd

theorem readLeaf_numeral_padded :
    let x : Primitive.Carrier (.int .nat64) := ⟨42, by decide⟩
    readLeaf (.int .nat64) (element "n" [] [] " +42\n") = .ok x ∧
      (Primitive.number? (.int .nat64) x = some ((42 : Int) : ℚ) ↔
        (Primitive.hint (.int .nat64) = .int ∧ IntType.int64.Holds 42) ∨
          ∃ d : Double, d.number? = some ((42 : Int) : ℚ)) := by
  intro x
  have hs : Spells " +42\n" 42 :=
    ⟨[' '], ['+', '4', '2'], ['\n'], rfl, by simp [Text.isBlank, Text.blankRanges],
      by simp [Text.isBlank, Text.blankRanges], .plus (by simp)⟩
  have h : readLeaf (.int .nat64) (element "n" [] [] " +42\n") = .ok x := rfl
  exact ⟨h, readLeaf_numeral (.inl rfl) hs (.element "n") h⟩

/-- The first whole number that no double is, and one that only the largest integer types hold. -/
theorem readLeaf_numeral_rounded :
    (Spells "9007199254740993" 9007199254740993 ∧
      (readLeaf .double (text "9007199254740993")).toOption.bind (Primitive.number? .double) =
        some 9007199254740992) ∧
    (Spells "9223372036854775809" 9223372036854775809 ∧
      (readLeaf (.int .nat64) (text "9223372036854775809")).toOption.bind
        (Primitive.number? (.int .nat64)) = some 9223372036854775808) := by
  refine ⟨⟨?_, ?_⟩, ⟨?_, ?_⟩⟩
  · have hdigits : Numeral ['9', '0', '0', '7', '1', '9', '9', '2', '5', '4', '7', '4', '0', '9',
        '9', '3'] 9007199254740993 := .unsigned (by simp)
    exact ⟨[], _, [], rfl, nofun, nofun, hdigits⟩
  · have h : readLeaf .double (text "9007199254740993") =
        .ok (.finite false 4503599627370496 1 (by decide)) := rfl
    rw [h]
    norm_num [Except.toOption, Primitive.number?, Binary.number?]
  · have hdigits : Numeral ['9', '2', '2', '3', '3', '7', '2', '0', '3', '6', '8', '5', '4', '7',
        '7', '5', '8', '0', '9'] 9223372036854775809 := .unsigned (by simp)
    exact ⟨[], _, [], rfl, nofun, nofun, hdigits⟩
  · have h : readLeaf (.int .nat64) (text "9223372036854775809") =
        .ok ⟨9223372036854775808, by decide⟩ := rfl
    rw [h]
    norm_num [Except.toOption, Primitive.number?]

end Xml.Node

end DataTree
