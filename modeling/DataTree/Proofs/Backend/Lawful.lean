import DataTree.Navigation
import DataTree.Proofs.Fields
import DataTree.Xml.Backend

namespace DataTree

namespace Backend

/-- A node that can be asked for every field, whatever it presents itself as. -/
def HoldsFields {S : Type} [Backend S] (node : S) : Prop :=
  ∀ name, ∃ found, field node name = .ok found

end Backend

open Backend (HoldsFields)

class LawfulBackend (S : Type) [Backend S] : Prop where
  fieldSlot_refill : ∀ {node : S} {name : String} {slot : Slot S},
    Backend.fieldSlot node name = .ok (some slot) → slot.refill slot.node = node
  itemSlot_refill : ∀ {node : S} {index : Nat} {slot : Slot S},
    Backend.itemSlot node index = .ok (some slot) → slot.refill slot.node = node
  holdsFields : ∀ {node : S}, Backend.kind node = .object → HoldsFields node
  insertField_ok : ∀ {node : S}, HoldsFields node → ∀ name child,
    ∃ node', Backend.insertField name child node = .ok () node' ∧ HoldsFields node'
  insertField_error : ∀ {node node' child : S} {name : String} {fault : Fault},
    Backend.insertField name child node = .error fault node' → node' = node
  removeField_ok : ∀ {node : S}, HoldsFields node → ∀ name,
    ∃ found node', Backend.removeField name node = .ok found node' ∧ HoldsFields node'
  pushItem_array : ∀ (items : List S) (child : S),
    Backend.pushItem child (Backend.array items) = .ok () (Backend.array (items ++ [child]))
  item_of_items : ∀ {node : S} {items : List S}, Backend.items node = some items →
    ∀ index, Backend.item node index = .ok items[index]?

namespace Tree

variable {L : Type} [Leaf L]

theorem holdsFields_iff {t : Tree L} : HoldsFields t ↔ ∃ fields, t = .object fields := by
  constructor
  · intro h
    obtain ⟨found, hf⟩ := h ""
    cases t with
    | object fields => exact ⟨fields, rfl⟩
    | _ => cases hf
  · rintro ⟨fields, rfl⟩ name
    exact ⟨_, rfl⟩

instance : LawfulBackend (Tree L) where
  fieldSlot_refill {t name slot} h := by
    cases t with
    | object fields =>
        obtain ⟨x, hx, rfl⟩ := Option.map_eq_some_iff.1 (Except.ok.inj h)
        exact congrArg Tree.object (Fields.put_of_lookup hx)
    | _ => cases h
  itemSlot_refill {t index slot} h := by
    cases t with
    | array items =>
        obtain ⟨x, hx, rfl⟩ := Option.map_eq_some_iff.1 (Except.ok.inj h)
        obtain ⟨hlt, rfl⟩ := List.getElem?_eq_some_iff.1 hx
        exact congrArg Tree.array (List.set_getElem_self hlt)
    | _ => cases h
  holdsFields {t} h name := by
    cases t with
    | object fields => exact ⟨_, rfl⟩
    | array items => cases h
    | leaf x =>
        change ((Leaf.kind? x).map Kind.scalar).getD .null = .object at h
        cases hx : Leaf.kind? x <;> simp [hx] at h
  insertField_ok h name child := by
    obtain ⟨fields, rfl⟩ := holdsFields_iff.1 h
    exact ⟨_, rfl, holdsFields_iff.2 ⟨_, rfl⟩⟩
  insertField_error {t t' child name fault} h := by
    cases t <;> cases h <;> rfl
  removeField_ok h name := by
    obtain ⟨fields, rfl⟩ := holdsFields_iff.1 h
    exact ⟨_, _, rfl, holdsFields_iff.2 ⟨_, rfl⟩⟩
  pushItem_array items child := rfl
  item_of_items {t items} h index := by
    cases t with
    | array all =>
        cases h
        rfl
    | _ => cases h

end Tree

namespace Xml.Node

theorem holdsFields_iff {node : Node} :
    HoldsFields node ↔ ∃ own attributes children content,
      node = .element own attributes children content := by
  constructor
  · intro h
    obtain ⟨found, hf⟩ := h ""
    cases node with
    | element own attributes children content => exact ⟨_, _, _, _, rfl⟩
    | _ => cases hf
  · rintro ⟨own, attributes, children, content, rfl⟩ name
    show ∃ found, field _ name = _
    rw [field]
    split <;> exact ⟨_, rfl⟩

theorem replaceNamed_of_filter {name : String} {children : List Node} {one : Node}
    (h : children.filter (isNamed name) = [one]) : replaceNamed name one children = children := by
  induction children with
  | nil => rfl
  | cons x xs ih =>
      rw [replaceNamed]
      split
      next hx =>
        rw [List.filter_cons_of_pos hx] at h
        rw [(List.cons.inj h).1]
      next hx =>
        rw [List.filter_cons_of_neg hx] at h
        rw [ih h]

instance : LawfulBackend Node where
  fieldSlot_refill {node name slot} h := by
    cases node with
    | element own attributes children content =>
        change Node.fieldSlot _ name = _ at h
        rw [Node.fieldSlot] at h
        split at h
        next => cases h
        next one hone =>
          cases h
          show Node.element _ _ (replaceNamed name one children) _ = _
          rw [replaceNamed_of_filter hone]
        next => cases h
    | _ => cases h
  itemSlot_refill {node index slot} h := by
    cases node with
    | element own attributes children content =>
        change Node.itemSlot _ index = _ at h
        rw [Node.itemSlot] at h
        split at h
        next => cases h
        next =>
          obtain ⟨x, hx, rfl⟩ := Option.map_eq_some_iff.1 (Except.ok.inj h)
          obtain ⟨hlt, rfl⟩ := List.getElem?_eq_some_iff.1 hx
          exact congrArg (Node.element own attributes · content) (List.set_getElem_self hlt)
    | list items =>
        obtain ⟨x, hx, rfl⟩ := Option.map_eq_some_iff.1 (Except.ok.inj h)
        obtain ⟨hlt, rfl⟩ := List.getElem?_eq_some_iff.1 hx
        exact congrArg Node.list (List.set_getElem_self hlt)
    | text content => cases h
  holdsFields {node} h := by
    cases node with
    | element own attributes children content => exact holdsFields_iff.2 ⟨_, _, _, _, rfl⟩
    | _ => cases h
  insertField_ok h name child := by
    obtain ⟨own, attributes, children, content, rfl⟩ := holdsFields_iff.1 h
    exact ⟨_, rfl, holdsFields_iff.2 ⟨_, _, _, _, rfl⟩⟩
  insertField_error {node node' child name fault} h := by
    cases node <;> cases h <;> rfl
  removeField_ok h name := by
    obtain ⟨own, attributes, children, content, rfl⟩ := holdsFields_iff.1 h
    show ∃ found node', removeField name _ = _ ∧ _
    rw [removeField]
    split <;> exact ⟨_, _, rfl, holdsFields_iff.2 ⟨_, _, _, _, rfl⟩⟩
  pushItem_array items child := rfl
  item_of_items {node items} h index := by
    change node.items? = some items at h
    show node.item index = _
    rw [item, h]

end Xml.Node

end DataTree
