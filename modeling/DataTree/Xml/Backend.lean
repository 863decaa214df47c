import DataTree.Xml.Node

namespace DataTree.Xml.Node

theorem height_le_heightOfItems {x : Node} {xs : List Node} (h : x ∈ xs) :
    x.height ≤ heightOfItems xs := by
  induction xs with
  | nil => cases h
  | cons y ys ih =>
      rcases List.mem_cons.1 h with rfl | h
      · exact Nat.le_max_left _ _
      · exact Nat.le_trans (ih h) (Nat.le_max_right _ _)

theorem heightOfItems_filter_le (p : Node → Bool) (xs : List Node) :
    heightOfItems (xs.filter p) ≤ heightOfItems xs := by
  induction xs with
  | nil => exact Nat.le_refl _
  | cons x xs ih =>
      by_cases h : p x
      · simp only [List.filter_cons, h, if_true, heightOfItems]
        omega
      · simp only [List.filter_cons, h, heightOfItems]
        exact Nat.le_trans ih (Nat.le_max_right _ _)

theorem height_lt_of_field {node child : Node} {name : String}
    (h : node.field name = .ok (some child)) : child.height < node.height := by
  cases node with
  | element own attributes children content =>
      have bound := heightOfItems_filter_le (isNamed name) children
      simp only [field] at h
      split at h
      · cases hf : List.lookup name attributes with
        | none => simp [hf] at h
        | some s =>
            simp only [hf, Option.map_some, Except.ok.injEq, Option.some.injEq] at h
            subst h
            exact Nat.succ_pos _
      · rename_i one hone
        simp only [Except.ok.injEq, Option.some.injEq] at h
        subst h
        have := height_le_heightOfItems (List.mem_cons_self : one ∈ [one])
        simp only [hone] at bound
        simp only [height]
        omega
      · simp only [Except.ok.injEq, Option.some.injEq] at h
        subst h
        simp only [height]
        omega
  | _ => simp [field] at h

theorem height_lt_of_items {node child : Node} {children : List Node}
    (h : node.items? = some children) (hc : child ∈ children) : child.height < node.height := by
  have bound := height_le_heightOfItems hc
  cases node with
  | element own attributes own_children content =>
      simp only [items?] at h
      split at h
      · cases h
      · simp only [Option.some.injEq] at h
        subst h
        simp only [height]
        omega
  | list items =>
      simp only [items?, Option.some.injEq] at h
      subst h
      simp only [height]
      omega
  | text content => simp [items?] at h

instance : Backend Node where
  null := empty
  bool b := .text (if b then "true" else "false")
  int i := .text (toString i.toInt)
  double x := .ok (.text (Layout.plain.text x))
  string := .text
  array := .list
  object := empty
  kind := kind
  scalar := scalar
  field := field
  item := item
  items := items?
  fieldNames := fieldNames
  fieldSlot := fieldSlot
  itemSlot := itemSlot
  insertField := insertField
  removeField := removeField
  pushItem := pushItem
  assign := assign
  height := height
  field_lt := height_lt_of_field
  items_lt := height_lt_of_items

end DataTree.Xml.Node
