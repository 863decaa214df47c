import DataTree.Proofs.Backend.Lawful
import DataTree.Proofs.Xml.Rendering

namespace DataTree.Xml.Node

variable {name other : String} {node node' child inner : Node} {children : List Node}

theorem isNamed_element {own : String} {attributes : List (String × String)} {content : String} :
    isNamed name (.element own attributes children content) = true ↔ own = name := by
  rw [isNamed, beq_iff_eq]

theorem isNamed_iff : isNamed name node = true ↔ ∃ attributes children content,
    node = .element name attributes children content := by
  constructor
  · intro h
    cases node with
    | element own attributes children content =>
        obtain rfl := isNamed_element.1 h
        exact ⟨_, _, _, rfl⟩
    | _ => cases h
  · rintro ⟨attributes, children, content, rfl⟩
    exact isNamed_element.2 rfl

theorem named_of_isNamed (h : isNamed name node = true) : named name node = node := by
  obtain ⟨attributes, children, content, rfl⟩ := isNamed_iff.1 h
  rw [named]

theorem not_isNamed_of_ne (hne : other ≠ name) (h : isNamed name node = true) :
    ¬ isNamed other node = true := by
  obtain ⟨attributes, children, content, rfl⟩ := isNamed_iff.1 h
  intro ho
  exact hne (isNamed_element.1 ho).symm

theorem filter_isNamed_filter (hne : other ≠ name) (children : List Node) :
    (children.filter (!isNamed name ·)).filter (isNamed other) =
      children.filter (isNamed other) := by
  rw [List.filter_filter]
  refine List.filter_congr fun y _ => ?_
  by_cases ho : isNamed other y = true
  · rw [ho, Bool.eq_false_iff.2 (not_isNamed_of_ne hne.symm ho)]
    rfl
  · rw [Bool.eq_false_iff.2 ho, Bool.false_and]

theorem filter_replaceNamed_self {one : Node} (h : children.filter (isNamed name) = [one])
    (hc : isNamed name child = true) :
    (replaceNamed name child children).filter (isNamed name) = [child] := by
  induction children with
  | nil => cases h
  | cons x xs ih =>
      by_cases hx : isNamed name x = true
      · rw [List.filter_cons_of_pos hx] at h
        rw [replaceNamed, if_pos hx, List.filter_cons_of_pos hc, (List.cons.inj h).2]
      · rw [List.filter_cons_of_neg hx] at h
        rw [replaceNamed, if_neg hx, List.filter_cons_of_neg hx, ih h]

theorem filter_replaceNamed_of_ne (hne : other ≠ name) (hc : isNamed name child = true)
    (children : List Node) :
    (replaceNamed name child children).filter (isNamed other) =
      children.filter (isNamed other) := by
  induction children with
  | nil => rfl
  | cons x xs ih =>
      rw [replaceNamed]
      by_cases hx : isNamed name x = true
      · rw [if_pos hx, List.filter_cons_of_neg (not_isNamed_of_ne hne hc),
          List.filter_cons_of_neg (not_isNamed_of_ne hne hx)]
      · rw [if_neg hx, List.filter_cons, List.filter_cons, ih]

theorem filter_place_self (hc : isNamed name child = true) (children : List Node) :
    (place name child children).filter (isNamed name) = [child] := by
  induction children with
  | nil => rw [place, List.filter_cons_of_pos hc, List.filter_nil]
  | cons x xs ih =>
      rw [place]
      by_cases hx : isNamed name x = true
      · rw [if_pos hx, List.filter_cons_of_pos hc, List.filter_filter]
        simp
      · rw [if_neg hx, List.filter_cons_of_neg hx, ih]

theorem filter_place_of_ne (hne : other ≠ name) (hc : isNamed name child = true)
    (children : List Node) :
    (place name child children).filter (isNamed other) = children.filter (isNamed other) := by
  induction children with
  | nil => rw [place, List.filter_cons_of_neg (not_isNamed_of_ne hne hc)]
  | cons x xs ih =>
      rw [place]
      by_cases hx : isNamed name x = true
      · rw [if_pos hx, List.filter_cons_of_neg (not_isNamed_of_ne hne hc),
          List.filter_cons_of_neg (not_isNamed_of_ne hne hx), filter_isNamed_filter hne]
      · rw [if_neg hx, List.filter_cons, List.filter_cons, ih]

theorem field_element (own : String) (attributes : List (String × String)) (children : List Node)
    (content name : String) :
    Backend.field (.element own attributes children content) name =
      match children.filter (isNamed name) with
      | [] => .ok ((List.lookup name attributes).map .text)
      | [one] => .ok (some one)
      | several => .ok (some (.list several)) := rfl

theorem field_of_filter {own : String} {attributes : List (String × String)} {content : String}
    (h : children.filter (isNamed name) = [child]) :
    Backend.field (.element own attributes children content) name = .ok (some child) := by
  rw [field_element, h]

theorem fieldSlot_eq_some {slot : Slot Node} (h : Backend.fieldSlot node name = .ok (some slot)) :
    ∃ own attributes children content one, node = .element own attributes children content ∧
      children.filter (isNamed name) = [one] ∧
      slot = ⟨one, fun x => .element own attributes (replaceNamed name x children) content⟩ := by
  cases node with
  | element own attributes children content =>
      change fieldSlot _ name = _ at h
      rw [fieldSlot] at h
      split at h
      next => cases h
      next one hone =>
        cases h
        exact ⟨own, attributes, children, content, one, rfl, hone, rfl⟩
      next => cases h
  | _ => cases h

theorem fieldSlot_eq_none (h : Backend.fieldSlot node name = .ok none) :
    ∃ own attributes children content, node = .element own attributes children content ∧
      children.filter (isNamed name) = [] := by
  cases node with
  | element own attributes children content =>
      change fieldSlot _ name = _ at h
      rw [fieldSlot] at h
      split at h
      next hnone => exact ⟨own, attributes, children, content, rfl, hnone⟩
      next => cases h
      next => cases h
  | _ => cases h

section Slots

variable {slot : Slot Node} (h : Backend.fieldSlot node name = .ok (some slot))

include h

theorem isNamed_slot : isNamed name slot.node = true := by
  obtain ⟨own, attributes, children, content, one, rfl, hone, rfl⟩ := fieldSlot_eq_some h
  have hmem : one ∈ children.filter (isNamed name) := hone ▸ List.mem_singleton_self one
  exact (List.mem_filter.1 hmem).2

theorem field_slot : Backend.field node name = .ok (some slot.node) := by
  obtain ⟨own, attributes, children, content, one, rfl, hone, rfl⟩ := fieldSlot_eq_some h
  exact field_of_filter hone

theorem field_refill_self (hinner : isNamed name inner = true) :
    Backend.field (slot.refill inner) name = .ok (some inner) := by
  obtain ⟨own, attributes, children, content, one, rfl, hone, rfl⟩ := fieldSlot_eq_some h
  exact field_of_filter (filter_replaceNamed_self hone hinner)

theorem field_refill_of_ne (hne : other ≠ name) (hinner : isNamed name inner = true) :
    Backend.field (slot.refill inner) other = Backend.field node other := by
  obtain ⟨own, attributes, children, content, one, rfl, hone, rfl⟩ := fieldSlot_eq_some h
  rw [field_element, field_element, filter_replaceNamed_of_ne hne hinner]

theorem isNamed_refill {own : String} :
    isNamed own (slot.refill inner) = isNamed own node := by
  obtain ⟨own', attributes, children, content, one, rfl, hone, rfl⟩ := fieldSlot_eq_some h
  rfl

end Slots

section Insertion

theorem insertField_eq_ok (h : Backend.insertField name child node = .ok () node') :
    ∃ own attributes children content, node = .element own attributes children content ∧
      node' = .element own (Fields.erase name attributes)
        (place name (child.named name) children) content := by
  cases node with
  | element own attributes children content =>
      cases h
      exact ⟨own, attributes, children, content, rfl, rfl⟩
  | _ => cases h

variable (h : Backend.insertField name child node = .ok () node')

include h

theorem field_insertField_self : Backend.field node' name = .ok (some (child.named name)) := by
  obtain ⟨own, attributes, children, content, rfl, rfl⟩ := insertField_eq_ok h
  exact field_of_filter (filter_place_self (isNamed_named_self name child) children)

theorem field_insertField_of_ne (hne : other ≠ name) :
    Backend.field node' other = Backend.field node other := by
  obtain ⟨own, attributes, children, content, rfl, rfl⟩ := insertField_eq_ok h
  have hnamed := isNamed_named_self name child
  rw [field_element, field_element, filter_place_of_ne hne hnamed, Fields.lookup_erase_of_ne hne]

theorem isNamed_insertField {own : String} : isNamed own node' = isNamed own node := by
  obtain ⟨own', attributes, children, content, rfl, rfl⟩ := insertField_eq_ok h
  rfl

end Insertion

/-- An attribute of a node stands behind children of its name, which are what is read. -/
def Shadowed (name : String) : Node → Prop
  | .element _ attributes children _ =>
    name ∈ Fields.names attributes ∧ ∃ child ∈ children, isNamed name child = true
  | _ => False

section Removal

variable {found : Option Node}

theorem removeField_eq_ok (h : Backend.removeField name node = .ok found node') :
    ∃ own attributes children content kept, node = .element own attributes children content ∧
      node' = .element own kept (children.filter (!isNamed name ·)) content ∧
      Backend.field node name = .ok found ∧
      (children.filter (isNamed name) = [] ∧ kept = Fields.erase name attributes ∨
        children.filter (isNamed name) ≠ [] ∧ kept = attributes) := by
  cases node with
  | element own attributes children content =>
      change removeField name _ = _ at h
      rw [removeField] at h
      refine ⟨own, attributes, children, content, ?_⟩
      split at h
      next hnone =>
        cases h
        exact ⟨_, rfl, rfl, by rw [field_element, hnone], .inl ⟨hnone, rfl⟩⟩
      next one hone =>
        cases h
        exact ⟨_, rfl, rfl, by rw [field_element, hone], .inr ⟨by simp [hone], rfl⟩⟩
      next hnil hmore =>
        cases h
        refine ⟨_, rfl, rfl, ?_, .inr ⟨hnil, rfl⟩⟩
        rw [field_element]
        split
        next he => exact absurd he hnil
        next one he => exact absurd he (hmore one)
        next => rfl
  | _ => cases h

variable (h : Backend.removeField name node = .ok found node')

include h

theorem field_removeField : Backend.field node name = .ok found := by
  obtain ⟨_, _, _, _, _, rfl, rfl, hfield, -⟩ := removeField_eq_ok h
  exact hfield

theorem field_removeField_of_ne (hne : other ≠ name) :
    Backend.field node' other = Backend.field node other := by
  obtain ⟨own, attributes, children, content, kept, rfl, rfl, -, hkept⟩ := removeField_eq_ok h
  rw [field_element, field_element, filter_isNamed_filter hne]
  rcases hkept with ⟨-, rfl⟩ | ⟨-, rfl⟩
  · rw [Fields.lookup_erase_of_ne hne]
  · rfl

theorem isNamed_removeField {own : String} : isNamed own node' = isNamed own node := by
  obtain ⟨_, _, _, _, _, rfl, rfl, -, -⟩ := removeField_eq_ok h
  rfl

theorem field_removeField_eq_none : Backend.field node' name = .ok none ↔ ¬ Shadowed name node := by
  obtain ⟨own, attributes, children, content, kept, rfl, rfl, -, hkept⟩ := removeField_eq_ok h
  have hgone : (children.filter (!isNamed name ·)).filter (isNamed name) = [] := by
    simp [List.filter_filter]
  rw [field_element, hgone, Except.ok.injEq, Option.map_eq_none_iff, Fields.lookup_eq_none,
    Shadowed]
  rcases hkept with ⟨hnone, rfl⟩ | ⟨hsome, rfl⟩
  · have hchildren : ¬ ∃ child ∈ children, isNamed name child = true := by
      simpa [List.filter_eq_nil_iff] using hnone
    exact iff_of_true (Fields.notMem_names_erase name attributes) fun hs => hchildren hs.2
  · have hchildren : ∃ child ∈ children, isNamed name child = true := by
      simpa [List.filter_eq_nil_iff] using hsome
    rw [and_iff_left hchildren]

end Removal

end DataTree.Xml.Node
