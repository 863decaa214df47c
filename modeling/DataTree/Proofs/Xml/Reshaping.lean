import DataTree.Proofs.Xml.Reading

namespace DataTree

def Scalar.printed? : Scalar → Option String
  | .null => none
  | .bool b => some (if b then "true" else "false")
  | .int i => some (toString i.toInt)
  | .double x => some (Layout.plain.text x)
  | .string s => some s

namespace Value

def ofText? : Option String → Value
  | none => null
  | some s => string s

def objectOf : List (String × Value) → Value
  | [] => null
  | field :: rest => .object (field :: rest)

def itemsOf : List Value → Value
  | [] => null
  | [x] => .object [(Xml.itemName, x)]
  | x :: y :: rest => .object [(Xml.itemName, .array (x :: y :: rest))]

mutual

def reshaped : Value → Value
  | .leaf s => ofText? s.printed?
  | .array items => .array (reshapedItems items)
  | .object fields => objectOf (enclosedFields fields)

/-- What a value reads as once it stands inside an element. -/
def enclosed : Value → Value
  | .leaf s => ofText? (s.printed?.filter (· ≠ ""))
  | .array items => itemsOf (enclosedItems items)
  | .object fields => objectOf (enclosedFields fields)

def reshapedItems : List Value → List Value
  | [] => []
  | x :: xs => reshaped x :: reshapedItems xs

def enclosedItems : List Value → List Value
  | [] => []
  | x :: xs => enclosed x :: enclosedItems xs

def enclosedFields : List (String × Value) → List (String × Value)
  | [] => []
  | (name, x) :: rest => (name, enclosed x) :: enclosedFields rest

end

theorem objectOf_of_ne_nil {fields : List (String × Value)} (h : fields ≠ []) :
    objectOf fields = .object fields := by
  obtain ⟨field, rest, rfl⟩ := List.exists_cons_of_ne_nil h
  rfl

theorem reshapedItems_eq_map (items : List Value) : reshapedItems items = items.map reshaped := by
  induction items with
  | nil => rfl
  | cons x xs ih => rw [reshapedItems, ih, List.map_cons]

theorem enclosedItems_eq_map (items : List Value) : enclosedItems items = items.map enclosed := by
  induction items with
  | nil => rfl
  | cons x xs ih => rw [enclosedItems, ih, List.map_cons]

theorem enclosedFields_eq_mapValues (fields : List (String × Value)) :
    enclosedFields fields = Fields.mapValues enclosed fields := by
  induction fields with
  | nil => rfl
  | cons field rest ih =>
      obtain ⟨name, x⟩ := field
      rw [enclosedFields, ih]
      rfl

end Value

namespace Xml.Node

theorem ofScalar_eq (s : Scalar) : ofScalar s = s.printed?.elim empty text := by
  cases s <;> rfl

theorem toValue_ofScalar (s : Scalar) :
    toValue (ofScalar s) = .ok (Value.ofText? s.printed?) := by
  rw [ofScalar_eq]
  cases s.printed? with
  | none => exact toValue_bare "" ""
  | some s => exact toValue_text s

theorem toValue_named_ofScalar (name : String) (s : Scalar) :
    toValue (named name (ofScalar s)) = .ok (Value.ofText? (s.printed?.filter (· ≠ ""))) := by
  rw [ofScalar_eq]
  cases s.printed? with
  | none => exact toValue_bare name ""
  | some s =>
      rw [Option.elim, named, toValue_bare]
      by_cases hs : s = ""
      · subst hs
        rfl
      · have hkept : (some s).filter (· ≠ "") = some s := by simp [Option.filter, hs]
        rw [if_neg hs, hkept]
        rfl

theorem toValue_list_of_forall₂ {items : List Node} {values : List Value}
    (h : List.Forall₂ (fun y v => toValue y = .ok v) items values) :
    toValue (Node.list items) = .ok (.array values) := by
  rw [toValue_list, eachItem_eq_ok_iff.2 h]
  rfl

theorem toValue_named_list_of_forall₂ (name : String) {items : List Node} {values : List Value}
    (h : List.Forall₂ (fun y v => toValue (named itemName y) = .ok v) items values) :
    toValue (named name (.list items)) = .ok (Value.itemsOf values) := by
  cases h with
  | nil => exact toValue_bare name ""
  | cons hy hys =>
      cases hys with
      | nil =>
          exact toValue_named_list_of_field (List.cons_ne_nil _ _) (field_named_list name _) hy
      | cons hz hzs =>
          have hlist := toValue_list_of_forall₂ (List.Forall₂.cons hy (.cons hz
            (List.forall₂_map_left_iff.2 hzs)))
          rw [← namedItems_eq_map] at hlist
          exact toValue_named_list_of_field (List.cons_ne_nil _ _) (field_named_list name _) hlist

theorem toValue_ofFields {fields : List (String × Value)} (hd : Fields.Distinct fields)
    (h : ∀ field ∈ fields, ∀ name,
      toValue (named name (ofTree field.2)) = .ok (Value.enclosed field.2)) (own : String) :
    toValue (element own [] (ofFields fields) "") =
      .ok (Value.objectOf (Value.enclosedFields fields)) := by
  rw [ofFields_eq_fieldNodes, Value.enclosedFields_eq_mapValues]
  rcases eq_or_ne fields [] with rfl | hne
  · exact toValue_bare own ""
  · have hnodes := distinct_mapValues hd
    have hmapped {α : Type} (g : Value → α) : Fields.mapValues g fields ≠ [] :=
      List.map_eq_nil_iff.not.2 hne
    have hread : eachField
        (Backend.fieldValue (element own [] (fieldNodes (Fields.mapValues ofTree fields)) ""))
        (Fields.names (Fields.mapValues Value.enclosed fields)) =
          .ok (Fields.mapValues Value.enclosed fields) := by
      apply eachField_names
      intro field hm
      obtain ⟨⟨name, x⟩, hx, rfl⟩ := List.mem_map.1 hm
      refine fieldValue_of_field ?_ (h (name, x) hx name)
      rw [field_fieldNodes hnodes, Fields.lookup_mapValues, Fields.lookup_of_mem hd hx]
      rfl
    rw [Fields.names_mapValues] at hread
    rw [Backend.toValue_of_object (kind_fieldNodes own (hmapped ofTree) ""),
      fieldNames_fieldNodes hnodes, Fields.names_mapValues, hread,
      Value.objectOf_of_ne_nil (hmapped Value.enclosed)]
    rfl

theorem toValue_ofTree {v : Value} (hd : v.Distinct) :
    toValue (ofTree v) = .ok v.reshaped ∧
      ∀ name, toValue (named name (ofTree v)) = .ok v.enclosed := by
  induction v using Tree.ind with
  | leaf s => exact ⟨toValue_ofScalar s, fun name => toValue_named_ofScalar name s⟩
  | array items ih =>
      have hitems (x : Value) (hx : x ∈ items) := ih x hx (Tree.hereditary_distinct.item hd hx)
      rw [ofTree, Value.reshaped, Value.enclosed, ofItems_eq_map, Value.reshapedItems_eq_map,
        Value.enclosedItems_eq_map]
      constructor
      · apply toValue_list_of_forall₂
        rw [List.forall₂_map_left_iff, List.forall₂_map_right_iff, List.forall₂_same]
        exact fun x hx => (hitems x hx).1
      · intro name
        apply toValue_named_list_of_forall₂
        rw [List.forall₂_map_left_iff, List.forall₂_map_right_iff, List.forall₂_same]
        exact fun x hx => (hitems x hx).2 itemName
  | object fields ih =>
      have hfields (field : String × Value) (hf : field ∈ fields) :=
        (ih field hf (Tree.hereditary_distinct.field hd hf)).2
      rw [ofTree, Value.reshaped, Value.enclosed]
      exact ⟨toValue_ofFields hd.1 hfields "", toValue_ofFields hd.1 hfields⟩

/-- Every value becomes an XML tree, and what this reads as is the value with scalars for texts,
with null for what has nothing in it, and with items in a field of their own inside elements. -/
theorem converts_reshaped {v : Value} (hd : v.Distinct) :
    ∃ node : Node, ofValue v = .ok node ∧ toValue node = .ok v.reshaped :=
  ⟨ofTree v, ofValue_eq hd, (toValue_ofTree hd).1⟩

/-- Arrays with no item, with one and with two, in each other and under an empty name, beside all
that becomes null. -/
theorem converts_reshaped_nested :
    let v : Value := .array [.array [], .object [], Value.string "",
      .object [("", .array [.array [Value.int 7]]), ("item", .object [("x", Value.string "")]),
        ("list", .array [Value.null, .array []]), ("none", .array [])]]
    let w : Value := .array [.array [], Value.null, Value.string "",
      .object [("", .object [("item", .object [("item", Value.string "7")])]),
        ("item", .object [("x", Value.null)]),
        ("list", .object [("item", .array [Value.null, Value.null])]), ("none", Value.null)]]
    v.Distinct ∧ ∃ node : Node, ofValue v = .ok node ∧ toValue node = .ok w := by
  intro v w
  have hd : v.Distinct := by
    simp [v, Tree.Distinct, Tree.DistinctItems, Tree.DistinctFields, Fields.Distinct, Fields.names]
  have hw : v.reshaped = w := by rfl
  exact ⟨hd, hw ▸ converts_reshaped hd⟩

end Xml.Node

end DataTree
