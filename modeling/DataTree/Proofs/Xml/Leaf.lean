import DataTree.Leaf
import DataTree.Proofs.Decimal.Text
import DataTree.Proofs.Primitive
import DataTree.Proofs.Text.Blank
import DataTree.Xml.Backend

namespace DataTree

def Primitive.Legible : (p : Primitive) → p.Carrier → Prop
  | .string, s => s ≠ ""
  | _, _ => True

/-- A text that is not empty and has no white space at its ends; a printed number never has any. -/
def Primitive.Trimmed : (p : Primitive) → p.Carrier → Prop
  | .string, s => s ≠ "" ∧ Text.trim s = s
  | .char, c => Text.isBlank c = false
  | _, _ => True

theorem Primitive.Trimmed.legible {p : Primitive} {x : p.Carrier} (h : p.Trimmed x) :
    p.Legible x := by
  cases p with
  | string => exact h.1
  | _ => trivial

namespace Xml.Node

theorem parseScalar_double (x : Double) :
    parseScalar (Layout.plain.text x) .double = .double x := by
  rw [parseScalar, Layout.text, String.toList_ofList, (Text.solid_plain x).trimChars]
  simp only [Decimal.float?_plain Format.ample_double x]
  rfl

theorem parseScalar_int (i : Int64) : parseScalar (toString i.toInt) .int = .int i := by
  rw [parseScalar, (Text.solid_toString i.toInt).trimChars]
  have hread := Text.signed64?_toString (Int64.le_toInt i) (Int64.toInt_lt i)
  simp only [hread, Option.getD_some, Int64.ofInt_toInt]

/-- A node that is a text, or an element with it and nothing else. -/
inductive Bears (s : String) : Node → Prop
  | text : Bears s (.text s)
  | element (name : String) : Bears s (.element name [] [] s)

theorem text_ne_empty {cs : List Char} (h : cs ≠ []) : String.ofList cs ≠ "" := by
  intro he
  exact h (by simpa using congrArg String.toList he)

theorem plainText_ne_empty (x : Double) : Layout.plain.text x ≠ "" := by
  refine text_ne_empty fun hnil => ?_
  have hread := Decimal.float?_plain Format.ample_double x
  rw [hnil] at hread
  cases hread

theorem toString_ne_empty (i : Int) : toString i ≠ "" := by
  intro h
  have hnil : (toString i).toList = [] := by rw [h, String.toList_empty]
  cases i with
  | ofNat n =>
      rw [Text.toList_toString_ofNat] at hnil
      exact Nat.toDigits_ne_nil hnil
  | negSucc n =>
      rw [Text.toList_toString_negSucc] at hnil
      cases hnil

theorem writeLeaf_text {p : Primitive} {x : p.Carrier} {node : Node} (h : writeLeaf p x = .ok node)
    (hx : p.Legible x) : ∃ s, node = .text s ∧ s ≠ "" ∧
      p.ofScalar (.leaf (parseScalar s p.hint)) = .ok x := by
  obtain ⟨v, hv, hnode⟩ := bind_eq_ok.1 h
  rw [mapError_eq_ok] at hnode
  have hback := (Primitive.ofScalar_toScalar hv).1
  cases p with
  | bool =>
      cases hv
      cases hnode
      refine ⟨_, rfl, ?_, ?_⟩
      · cases x <;> decide
      · cases x <;> rfl
  | int t =>
      simp only [Primitive.toScalar] at hv
      split at hv
      next i hi =>
        cases hv
        cases hnode
        refine ⟨_, rfl, toString_ne_empty _, ?_⟩
        rw [Primitive.hint, parseScalar_int]
        exact hback
      next => cases hv
  | double =>
      cases hv
      cases hnode
      refine ⟨_, rfl, plainText_ne_empty _, ?_⟩
      rw [Primitive.hint, parseScalar_double]
      exact hback
  | single =>
      cases hv
      cases hnode
      refine ⟨_, rfl, plainText_ne_empty _, ?_⟩
      rw [Primitive.hint, parseScalar_double]
      exact hback
  | char =>
      cases hv
      cases hnode
      exact ⟨_, rfl, text_ne_empty (List.cons_ne_nil _ _), hback⟩
  | string =>
      cases hv
      cases hnode
      exact ⟨_, rfl, hx, hback⟩

theorem writeLeaf_eq_text {p : Primitive} {x : p.Carrier} {node : Node}
    (h : writeLeaf p x = .ok node) : ∃ s, node = .text s ∧ (s = "" ↔ ¬ p.Legible x) ∧
      p.ofScalar (.leaf (parseScalar s p.hint)) = .ok x := by
  by_cases hx : p.Legible x
  · obtain ⟨s, rfl, hs, hread⟩ := writeLeaf_text h hx
    exact ⟨s, rfl, iff_of_false hs (not_not_intro hx), hread⟩
  · cases p with
    | string =>
        obtain rfl : x = "" := not_not.1 hx
        cases h
        exact ⟨"", rfl, iff_of_true rfl hx, rfl⟩
    | _ => exact absurd trivial hx

theorem trim_of_writeLeaf {p : Primitive} {x : p.Carrier} {s : String}
    (h : writeLeaf p x = .ok (Node.text s)) (hx : p.Trimmed x) : Text.trim s = s := by
  obtain ⟨v, hv, hnode⟩ := bind_eq_ok.1 h
  rw [mapError_eq_ok] at hnode
  cases p with
  | bool =>
      cases hv
      cases hnode
      cases x <;> decide
  | int t =>
      simp only [Primitive.toScalar] at hv
      split at hv
      next i hi =>
        cases hv
        cases hnode
        exact Text.Solid.trim (Text.solid_toString _)
      next => cases hv
  | double | single =>
      cases hv
      cases hnode
      refine Text.Solid.trim ?_
      rw [Layout.text, String.toList_ofList]
      exact Text.solid_plain _
  | char =>
      cases hv
      cases hnode
      have hsolid : Text.Solid [x] := List.forall_mem_singleton.2 hx
      exact Text.Solid.trim (by rwa [String.toList_ofList])
  | string =>
      cases hv
      cases hnode
      exact hx.2

theorem scalar_bears {s : String} (hs : s ≠ "") {m : Node} (hm : Bears s m) (hint : ScalarKind) :
    Backend.scalar m hint = .ok (.leaf (parseScalar s hint)) := by
  cases hm with
  | text => rfl
  | element name =>
      show scalar _ _ = _
      rw [scalar, if_pos hs]

theorem readLeaf_bears {p : Primitive} {x : p.Carrier} {s : String} (hs : s ≠ "")
    (hx : p.ofScalar (.leaf (parseScalar s p.hint)) = .ok x) {m : Node} (hm : Bears s m) :
    Backend.isNull m = false ∧ readLeaf p m = .ok x := by
  have hkind : Backend.kind m = .scalar .string := by
    cases hm with
    | text => rfl
    | element name =>
        show kind _ = _
        rw [kind, if_neg (by simp), if_pos hs]
  refine ⟨?_, ?_⟩
  · rw [Backend.isNull, hkind]
    rfl
  · rw [readLeaf, scalar_bears hs hm]
    exact hx

end Xml.Node

end DataTree
