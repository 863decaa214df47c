import DataTree.Conversion
import DataTree.Proofs.Tree.Hereditary
import DataTree.Proofs.Xml.Children

namespace DataTree.Xml.Node

def ofScalar : Scalar → Node
  | .null => empty
  | .bool b => Backend.bool b
  | .int i => Backend.int i
  | .double x => .text (Layout.plain.text x)
  | .string s => .text s

mutual

def ofTree : Value → Node
  | .leaf s => ofScalar s
  | .array items => .list (ofItems items)
  | .object fields => .element "" [] (ofFields fields) ""

def ofItems : List Value → List Node
  | [] => []
  | x :: xs => ofTree x :: ofItems xs

def ofFields : List (String × Value) → List Node
  | [] => []
  | (name, x) :: rest => named name (ofTree x) :: ofFields rest

end

theorem ofItems_eq_map (items : List Value) : ofItems items = items.map ofTree := by
  induction items with
  | nil => rfl
  | cons x xs ih => rw [ofItems, ih, List.map_cons]

theorem namedItems_eq_map (items : List Node) : namedItems items = items.map (named itemName) := by
  induction items with
  | nil => rfl
  | cons x xs ih => rw [namedItems, ih, List.map_cons]

theorem ofFields_eq_fieldNodes (fields : List (String × Value)) :
    ofFields fields = fieldNodes (Fields.mapValues ofTree fields) := by
  induction fields with
  | nil => rfl
  | cons field rest ih =>
      obtain ⟨name, x⟩ := field
      rw [ofFields, ih]
      rfl

/-- A node as it stands in a parent, under the parent's name for it, or on its own. -/
def placed : Option String → Node → Node
  | none, node => node
  | some name, node => named name node

theorem placed_object (place : Option String) (fields : List (String × Value)) :
    placed place (ofTree (.object fields)) =
      .element (place.getD "") [] (ofFields fields) "" := by
  cases place with
  | none => rw [placed, ofTree]; rfl
  | some name => rw [placed, ofTree, named]; rfl

section Children

variable {fields : List (String × Value)} {name : String}

theorem distinct_mapValues (hd : Fields.Distinct fields) :
    Fields.Distinct (Fields.mapValues ofTree fields) := by
  rwa [Fields.Distinct, Fields.names_mapValues]

theorem filter_isNamed_none (h : name ∉ Fields.names fields) :
    (ofFields fields).filter (isNamed name) = [] := by
  rw [ofFields_eq_fieldNodes]
  exact filter_fieldNodes_of_notMem (by rwa [Fields.names_mapValues])

theorem filter_isNamed_some (hd : Fields.Distinct fields) {a : Value}
    (h : List.lookup name fields = some a) :
    (ofFields fields).filter (isNamed name) = [named name (ofTree a)] := by
  rw [ofFields_eq_fieldNodes]
  exact filter_fieldNodes (distinct_mapValues hd) (by rw [Fields.lookup_mapValues, h]; rfl)

theorem filter_not_isNamed (name : String) (fields : List (String × Value)) :
    (ofFields fields).filter (!isNamed name ·) = ofFields (Fields.erase name fields) := by
  rw [ofFields_eq_fieldNodes, filter_not_isNamed_fieldNodes, Fields.erase_mapValues,
    ofFields_eq_fieldNodes]

theorem replaceNamed_ofFields (h : name ∈ Fields.names fields) (x : Value) :
    replaceNamed name (named name (ofTree x)) (ofFields fields) =
      ofFields (Fields.put name x fields) := by
  rw [ofFields_eq_fieldNodes, replaceNamed_fieldNodes (by rwa [Fields.names_mapValues]),
    Fields.put_mapValues, ofFields_eq_fieldNodes]

end Children

theorem insertField_object (place : Option String) {fields : List (String × Value)}
    (hd : Fields.Distinct fields) (name : String) (x : Value) :
    Backend.insertField name (ofTree x) (placed place (ofTree (.object fields))) =
      .ok () (placed place (ofTree (.object (Fields.put name x fields)))) := by
  rw [placed_object, placed_object, ofFields_eq_fieldNodes, ofFields_eq_fieldNodes,
    insertField_fieldNodes (distinct_mapValues hd), Fields.put_mapValues]

theorem ofItems_eq {items : List Value}
    (h : ∀ x ∈ items, (ofValue x : Except DataTree.Error Node) = .ok (ofTree x)) (index : Nat) :
    DataTree.ofItems index items = .ok (ofItems items) := by
  induction items generalizing index with
  | nil => rfl
  | cons x xs ih =>
      rw [DataTree.ofItems, h x List.mem_cons_self,
        ih (fun y hy => h y (List.mem_cons_of_mem _ hy))]
      rfl

theorem ofFields_eq {fields : List (String × Value)}
    (h : ∀ field ∈ fields, (ofValue field.2 : Except DataTree.Error Node) = .ok (ofTree field.2))
    {done : List (String × Value)} (hd : Fields.Distinct done) :
    DataTree.ofFields fields (ofTree (.object done)) =
      .ok (ofTree (.object (Fields.putAll fields done))) := by
  induction fields generalizing done with
  | nil => rfl
  | cons field rest ih =>
      obtain ⟨name, x⟩ := field
      have hx : (ofValue x : Except DataTree.Error Node) = .ok (ofTree x) := h _ List.mem_cons_self
      have hi : Backend.insertField name (ofTree x) (ofTree (.object done)) =
          .ok () (ofTree (.object (Fields.put name x done))) := insertField_object none hd name x
      have hrest := ih (fun y hy => h y (List.mem_cons_of_mem _ hy))
        (Fields.distinct_put name x hd)
      rw [Fields.putAll_cons, ← hrest, DataTree.ofFields, hx]
      show (match Backend.insertField name (ofTree x) (ofTree (.object done)) with
        | .ok () node => DataTree.ofFields rest node
        | .error fault _ => .error ⟨fault, [.name name]⟩) = _
      rw [hi]

theorem ofValue_eq {v : Value} (hd : v.Distinct) : ofValue v = .ok (ofTree v) := by
  induction v using Tree.ind with
  | leaf s => cases s <;> rfl
  | array items ih =>
      have hitems := ofItems_eq (fun x hx => ih x hx (Tree.hereditary_distinct.item hd hx)) 0
      rw [ofValue, hitems]
      rfl
  | object fields ih =>
      have hfields := ofFields_eq (fun field hf => ih field hf
        (Tree.hereditary_distinct.field hd hf)) Fields.distinct_nil
      rw [← Fields.ofPairs, Fields.ofPairs_of_distinct hd.1] at hfields
      rw [ofValue]
      exact hfields

end DataTree.Xml.Node
