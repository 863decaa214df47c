import DataTree.Json
import DataTree.Leaf
import DataTree.Proofs.Binary.Whole
import DataTree.Proofs.Outcome

namespace DataTree

theorem int64?_eq_some {n : Int} {i : Int64} (h : int64? n = some i) : i.toInt = n := by
  rw [int64?] at h
  split at h
  next hn =>
    cases h
    obtain ⟨hlow, hhigh⟩ := hn
    have hlow : -9223372036854775808 ≤ n := hlow
    have hhigh : n ≤ 9223372036854775807 := hhigh
    exact Int64.toInt_ofInt_of_le hlow (by omega)
  next => cases h

theorem IntType.holds_toInt (i : Int64) : IntType.int64.Holds i.toInt := by
  have hlow : -9223372036854775808 ≤ i.toInt := Int64.le_toInt i
  have hhigh : i.toInt < 9223372036854775808 := Int64.toInt_lt i
  exact ⟨hlow, Int.le_sub_one_of_lt hhigh⟩

theorem int64?_toInt (i : Int64) : int64? i.toInt = some i := by
  rw [int64?, if_pos (IntType.holds_toInt i), Int64.ofInt_toInt]

theorem Whole.of?_val {t : IntType} (n : Whole t) : Whole.of? t n.val = some n := by
  rw [Whole.of?, dif_pos n.holds]

theorem Whole.of?_eq_none {t : IntType} {n : Int} : Whole.of? t n = none ↔ ¬ t.Holds n := by
  rw [Whole.of?, dite_eq_right_iff]
  simp

namespace Primitive

theorem intOfScalar_int {t : IntType} {n : Whole t} {i : Int64} (h : i.toInt = n.val) :
    intOfScalar t (Value.int i) = .ok n := by
  simp only [intOfScalar, h, Whole.of?_val]

theorem singleOfScalar_convert (x : Single) :
    singleOfScalar (Value.double x.convert) = .ok x := by
  simp only [singleOfScalar, Binary.narrow?_convert]

theorem charOfScalar_ofList (c : Char) :
    charOfScalar (Value.string (String.ofList [c])) = .ok c := by
  simp only [charOfScalar, String.toList_ofList]

theorem ofScalar_toScalar {p : Primitive} {x : p.Carrier} {v : Value} (h : p.toScalar x = .ok v) :
    p.ofScalar v = .ok x ∧ ∃ s : Scalar, v = .leaf s ∧ s.kind?.isSome = true := by
  cases p with
  | int t =>
      simp only [toScalar] at h
      split at h
      next i hi =>
        cases h
        exact ⟨intOfScalar_int (int64?_eq_some hi), _, rfl, rfl⟩
      next => cases h
  | single =>
      cases h
      exact ⟨singleOfScalar_convert x, _, rfl, rfl⟩
  | char =>
      cases h
      exact ⟨charOfScalar_ofList x, _, rfl, rfl⟩
  | _ =>
      cases h
      exact ⟨rfl, _, rfl, rfl⟩

theorem equals_of_equals {p : Primitive} {x a b : p.Carrier} (ha : p.equals x a = true)
    (hb : p.equals x b = true) : p.equals a b = true := by
  cases p with
  | double => exact Binary.equals_of_equals ha hb
  | single => exact Binary.equals_of_equals ha hb
  | _ =>
      obtain rfl := of_decide_eq_true ha
      exact hb

/-- A whole number beyond the 64 bits with a sign that a tree has is no scalar of it. Everything
else that a type holds is. -/
def Storable : (p : Primitive) → p.Carrier → Prop
  | int _, n => IntType.int64.Holds n.val
  | _, _ => True

theorem toScalar_of_storable {p : Primitive} {x : p.Carrier} (h : p.Storable x) :
    ∃ v, p.toScalar x = .ok v ∧ p.ofScalar v = .ok x := by
  have hscalar : ∃ v, p.toScalar x = .ok v := by
    cases p with
    | int t =>
        have hint : int64? x.val = some (Int64.ofInt x.val) := if_pos h
        simp only [toScalar, hint]
        exact ⟨_, rfl⟩
    | _ => exact ⟨_, rfl⟩
  obtain ⟨v, hv⟩ := hscalar
  exact ⟨v, hv, (ofScalar_toScalar hv).1⟩

theorem toScalar_of_not_storable {p : Primitive} {x : p.Carrier} (h : ¬ p.Storable x) :
    ∃ text, p.toScalar x = .error (.numberOutOfRange text "int") := by
  cases p with
  | int t =>
      have hint : int64? x.val = none := if_neg h
      simp only [toScalar, hint]
      exact ⟨_, rfl⟩
  | _ => exact absurd trivial h

def Numeric (p : Primitive) : Prop := p.hint = .int ∨ p.hint = .double

def number? : (p : Primitive) → p.Carrier → Option ℚ
  | int _, n => some n.val
  | double, x => x.number?
  | single, x => x.number?
  | _, _ => none

section Coercion

variable {p : Primitive} {x : p.Carrier}

theorem val_of_of? {t : IntType} {n : Int} {w : Whole t} (h : Whole.of? t n = some w) :
    w.val = n := by
  rw [Whole.of?] at h
  split at h
  next =>
    cases h
    rfl
  next => cases h

theorem of?_toInt128 (t : IntType) {F : Format} {x : Binary F} {n : Int}
    (h : x.number? = some (n : ℚ)) : Whole.of? t x.toInt128 = Whole.of? t n := by
  have hleast : -(1 <<< 127 : Nat) < t.least := by cases t <;> decide
  have hgreatest : t.greatest < (1 <<< 127 : Nat) - 1 := by cases t <;> decide
  rw [Binary.toInt128, Binary.cutOff_of_number? h]
  by_cases hn : t.Holds n
  · obtain ⟨hlow, hhigh⟩ := hn
    rw [min_eq_right (by omega), max_eq_right (by omega)]
  · have hcut : ¬ t.Holds (max (-(1 <<< 127 : Nat)) (min ((1 <<< 127 : Nat) - 1) n)) := by
      rintro ⟨hlow, hhigh⟩
      refine hn ⟨?_, ?_⟩ <;> omega
    rw [Whole.of?, dif_neg hcut, Whole.of?, dif_neg hn]

theorem number?_of_int {i : Int64} (hp : p.Numeric) (h : p.ofScalar (Value.int i) = .ok x) :
    p.number? x = some (i.toInt : ℚ) := by
  cases p with
  | int t =>
      simp only [ofScalar, intOfScalar] at h
      split at h
      next w hw =>
        cases h
        rw [number?, val_of_of? hw]
      next => cases h
  | double =>
      simp only [ofScalar, doubleOfScalar] at h
      split at h
      next y hy =>
        cases h
        exact ((Binary.ofInt?_eq_some Format.hasUnits_double).1 hy).2
      next => cases h
  | single =>
      simp only [ofScalar, singleOfScalar] at h
      split at h
      next y hy =>
        cases h
        exact ((Binary.ofInt?_eq_some Format.hasUnits_single).1 hy).2
      next => cases h
  | _ => rcases hp with hp | hp <;> cases hp

theorem number?_of_double {d : Double} (hp : p.Numeric) (h : p.ofScalar (Value.double d) = .ok x) :
    p.number? x = d.number? := by
  cases p with
  | int t =>
      simp only [ofScalar, intOfScalar] at h
      split at h
      next n hn =>
        obtain ⟨rfl, k, hk⟩ := Binary.exists_of_toInt? hn
        rw [of?_toInt128 t hk] at h
        split at h
        next w hw =>
          cases h
          rw [number?, val_of_of? hw, hk]
        next => cases h
      next => cases h
  | double =>
      cases h
      rfl
  | single =>
      simp only [ofScalar, singleOfScalar] at h
      split at h
      next y hy =>
        cases h
        exact Binary.number?_of_narrow? hy
      next => cases h
  | _ => rcases hp with hp | hp <;> cases hp

end Coercion

end Primitive

/-- Leaves that a scalar can be made into have its kind and give it back. -/
class LawfulLeaf (L : Type) [Leaf L] : Prop where
  of_scalar {s : Scalar} {t : Tree L} : ofScalar s = .ok t →
    ∃ x, t = .leaf x ∧ Leaf.kind? x = s.kind? ∧ Leaf.scalar x = .ok s

instance : LawfulLeaf Scalar where
  of_scalar {s t} h := by
    cases s <;> cases h <;> exact ⟨_, rfl, rfl, rfl⟩

namespace Json

theorem toScalar_ofInt64 (i : Int64) :
    (Scalar.number (.ofInt64 i)).toScalar = .ok (.int i) := by
  have hi : i.toInt < 0x8000000000000000 := i.toInt_lt
  simp only [Scalar.toScalar, Number.ofInt64, if_pos hi, Int64.ofInt_toInt]

instance : LawfulLeaf Scalar where
  of_scalar {s t} h := by
    cases s with
    | double x =>
        obtain ⟨l, hl, rfl⟩ := map_eq_ok.1 h
        change Scalar.ofDouble x = .ok l at hl
        rw [Scalar.ofDouble] at hl
        split at hl
        next =>
          cases hl
          exact ⟨_, rfl, rfl, rfl⟩
        next => cases hl
    | int i =>
        cases h
        exact ⟨_, rfl, rfl, toScalar_ofInt64 i⟩
    | _ =>
        cases h
        exact ⟨_, rfl, rfl, rfl⟩

end Json

section Leaves

variable {L : Type} [Leaf L] [LawfulLeaf L]

theorem kind?_null : Leaf.kind? (Leaf.null : L) = none := by
  obtain ⟨x, hx, hk, -⟩ := LawfulLeaf.of_scalar (L := L) (s := .null) rfl
  cases hx
  exact hk

theorem readLeaf_writeLeaf {p : Primitive} {x : p.Carrier} {t : Tree L}
    (h : writeLeaf p x = .ok t) :
    readLeaf p t = .ok x ∧ ∃ l, t = .leaf l ∧ (Leaf.kind? l).isSome = true := by
  obtain ⟨v, hv, ht⟩ := bind_eq_ok.1 h
  obtain ⟨hread, s, rfl, hs⟩ := Primitive.ofScalar_toScalar hv
  rw [mapError_eq_ok, ofValue, mapError_eq_ok] at ht
  obtain ⟨l, rfl, hk, hl⟩ := LawfulLeaf.of_scalar ht
  rw [← hk] at hs
  refine ⟨?_, l, rfl, hs⟩
  have hscalar : Backend.scalar (Tree.leaf l) p.hint = .ok (Tree.leaf s) := by
    show Tree.scalar _ _ = _
    rw [Tree.scalar, if_pos hs, hl]
    rfl
  rw [readLeaf, hscalar]
  exact hread

end Leaves

end DataTree
