import DataTree.Proofs.Backend.Coherent
import DataTree.Proofs.Xml.Field

namespace DataTree

namespace Backend

/-- Taken out of both objects, a field leaves the same object behind, and was the same: at most its
place in the order of the fields is another one. -/
def SameBut {S : Type} [Backend S] (name : String) (object object' : S) : Prop :=
  removeField name object = removeField name object'

end Backend

open Backend (HoldsFields SameBut)

class FieldwiseBackend (S : Type) [Backend S] : Prop extends CoherentBackend S where
  holdsFields_object : HoldsFields (Backend.object : S)
  field_removeField : ∀ {node rest : S} {found : Option S} {name : String},
    Backend.removeField name node = .ok found rest → Backend.field node name = .ok found ∧
      ∀ other, other ≠ name → Backend.field rest other = Backend.field node other
  removeField_insertField : ∀ {node node' rest child : S} {found : Option S} {name other : String},
    other ≠ name → Backend.removeField name node = .ok found rest →
    Backend.insertField other child node = .ok () node' →
    ∃ rest', Backend.insertField other child rest = .ok () rest' ∧
      Backend.removeField name node' = .ok found rest'
  insertField_swap : ∀ {node a b a' b' x y : S} {name other : String}, other ≠ name →
    Backend.insertField name x node = .ok () a → Backend.insertField other y a = .ok () a' →
    Backend.insertField other y node = .ok () b → Backend.insertField name x b = .ok () b' →
    SameBut name a' b'

theorem Backend.SameBut.field_eq {S : Type} [Backend S] [FieldwiseBackend S] {name : String}
    {a b : S} (h : SameBut name a b) (hb : HoldsFields b) (other : String) :
    field a other = field b other := by
  obtain ⟨found, rest, hrest, -⟩ := LawfulBackend.removeField_ok hb name
  obtain ⟨hself, hother⟩ := FieldwiseBackend.field_removeField hrest
  obtain ⟨hself', hother'⟩ := FieldwiseBackend.field_removeField (Eq.trans h hrest)
  by_cases hname : other = name
  · rw [hname, hself, hself']
  · rw [← hother other hname, ← hother' other hname]

namespace Fields

variable {α : Type} {name other : String} (x : α)

theorem erase_put_self (name : String) (fields : List (String × α)) :
    erase name (put name x fields) = erase name fields := by
  induction fields with
  | nil => simp [put, erase]
  | cons field rest ih =>
      obtain ⟨first, y⟩ := field
      by_cases h : first = name
      · obtain rfl := h
        rw [put, if_pos rfl, erase_cons_self, erase_cons_self]
      · rw [put, if_neg h, erase_cons_of_ne h, erase_cons_of_ne h, ih]

theorem erase_put_of_ne (h : other ≠ name) (fields : List (String × α)) :
    erase name (put other x fields) = put other x (erase name fields) := by
  induction fields with
  | nil => rw [put, erase_cons_of_ne h]; rfl
  | cons field rest ih =>
      obtain ⟨first, y⟩ := field
      by_cases hf : first = name
      · obtain rfl := hf
        rw [put, if_neg (Ne.symm h), erase_cons_self, erase_cons_self, ih]
      · rw [put, erase_cons_of_ne hf, put]
        split
        next => rw [erase_cons_of_ne hf]
        next => rw [erase_cons_of_ne hf, ih]

theorem erase_comm (name other : String) (fields : List (String × α)) :
    erase name (erase other fields) = erase other (erase name fields) := by
  rw [erase, erase, erase, erase, List.filter_comm]

end Fields

namespace Tree

variable {L : Type} [Leaf L]

instance : FieldwiseBackend (Tree L) where
  holdsFields_object := holdsFields_iff.2 ⟨[], rfl⟩
  field_removeField {node rest found name} h := by
    cases node with
    | object fields =>
        cases h
        exact ⟨rfl, fun other hne => congrArg Except.ok (Fields.lookup_erase_of_ne hne fields)⟩
    | _ => cases h
  removeField_insertField {node node' rest child found name other} hne hremove hinsert := by
    cases node with
    | object fields =>
        cases hremove
        cases hinsert
        refine ⟨_, rfl, ?_⟩
        show EStateM.Result.ok (List.lookup name (Fields.put other child fields))
          (Tree.object (Fields.erase name (Fields.put other child fields))) = _
        rw [Fields.lookup_put_of_ne hne.symm, Fields.erase_put_of_ne child hne]
    | _ => cases hinsert
  insertField_swap {node a b a' b' x y name other} hne ha ha' hb hb' := by
    cases node with
    | object fields =>
        cases ha
        cases ha'
        cases hb
        cases hb'
        show EStateM.Result.ok (List.lookup name (Fields.put other y (Fields.put name x fields)))
            (Tree.object (Fields.erase name (Fields.put other y (Fields.put name x fields)))) =
          EStateM.Result.ok (List.lookup name (Fields.put name x (Fields.put other y fields)))
            (Tree.object (Fields.erase name (Fields.put name x (Fields.put other y fields))))
        rw [Fields.lookup_put_of_ne hne.symm, Fields.lookup_put_self, Fields.lookup_put_self,
          Fields.erase_put_of_ne y hne, Fields.erase_put_self, Fields.erase_put_self,
          Fields.erase_put_of_ne y hne]
    | _ => cases ha

end Tree

namespace Xml.Node

variable {name other : String} {child : Node}

theorem filter_not_place_self (hc : isNamed name child = true) (children : List Node) :
    (place name child children).filter (!isNamed name ·) = children.filter (!isNamed name ·) := by
  induction children with
  | nil => simp [place, hc]
  | cons x xs ih =>
      by_cases hx : isNamed name x = true
      · simp [place, hx, hc]
      · simp [place, hx, ih]

theorem filter_not_place_of_ne (hne : other ≠ name) (hc : isNamed other child = true)
    (children : List Node) : (place other child children).filter (!isNamed name ·) =
      place other child (children.filter (!isNamed name ·)) := by
  have hchild : isNamed name child = false := Bool.eq_false_iff.2 (not_isNamed_of_ne hne.symm hc)
  induction children with
  | nil => simp [place, hchild]
  | cons x xs ih =>
      by_cases hx : isNamed other x = true
      · have hother : isNamed name x = false := Bool.eq_false_iff.2 (not_isNamed_of_ne hne.symm hx)
        simp [place, hx, hchild, hother, List.filter_comm (p := fun y => !isNamed name y)]
      · by_cases hn : isNamed name x = true
        · simp [place, hx, hn, ih]
        · simp [place, hx, hn, ih]

theorem removeField_element (own : String) (attributes : List (String × String))
    (children : List Node) (content name : String) :
    Backend.removeField name (.element own attributes children content) =
      match children.filter (isNamed name) with
      | [] => .ok ((List.lookup name attributes).map .text)
        (.element own (Fields.erase name attributes) (children.filter (!isNamed name ·)) content)
      | [one] => .ok (some one)
        (.element own attributes (children.filter (!isNamed name ·)) content)
      | several => .ok (some (.list several))
        (.element own attributes (children.filter (!isNamed name ·)) content) := rfl

instance : FieldwiseBackend Node where
  holdsFields_object := holdsFields_iff.2 ⟨_, _, _, _, rfl⟩
  field_removeField h := ⟨field_removeField h, fun _ hne => field_removeField_of_ne h hne⟩
  removeField_insertField {node node' rest child found name other} hne hremove hinsert := by
    obtain ⟨own, attributes, children, content, rfl, rfl⟩ := insertField_eq_ok hinsert
    have hnamed := isNamed_named_self other child
    rw [removeField_element] at hremove ⊢
    rw [filter_place_of_ne hne.symm hnamed, filter_not_place_of_ne hne hnamed,
      Fields.lookup_erase_of_ne hne.symm, Fields.erase_comm]
    split at hremove <;> cases hremove <;> exact ⟨_, rfl, rfl⟩
  insertField_swap {node a b a' b' x y name other} hne ha ha' hb hb' := by
    obtain ⟨own, attributes, children, content, rfl, rfl⟩ := insertField_eq_ok ha
    cases ha'
    cases hb
    cases hb'
    have hx := isNamed_named_self name x
    have hy := isNamed_named_self other y
    show Backend.removeField name (element own (Fields.erase other (Fields.erase name attributes))
        (place other (y.named other) (place name (x.named name) children)) content) =
      Backend.removeField name (element own (Fields.erase name (Fields.erase other attributes))
        (place name (x.named name) (place other (y.named other) children)) content)
    rw [removeField_element, removeField_element, filter_place_of_ne hne.symm hy,
      filter_place_self hx, filter_place_self hx, filter_not_place_of_ne hne hy,
      filter_not_place_self hx, filter_not_place_self hx, filter_not_place_of_ne hne hy]
    dsimp only
    rw [Fields.erase_comm name other attributes]

end Xml.Node

end DataTree
