import DataTree.Proofs.Tree.Removed
import DataTree.Proofs.Xml.Rendering

namespace DataTree.Xml.Node

open Backend (setAt remove)
open DataTree.Tree (Written Removed)

/-- The name that the items of an array have where the array stands. -/
def itemPlace (place : Option String) : Option String := place.map fun _ => itemName

theorem setAt_root (x t : Value) {place : Option String} (hp : place ≠ some "") :
    setAt (ofTree x) false [] (placed place (ofTree t)) = .ok () (placed place (ofTree x)) := by
  have ha : assign (placed place (ofTree t)) (ofTree x) = placed place (ofTree x) := by
    cases place with
    | none =>
        cases t with
        | leaf s => cases s <;> rfl
        | array items => rfl
        | object fields => rw [placed_object]; rfl
    | some name =>
        have hne : name ≠ "" := fun he => hp (congrArg some he)
        rw [placed]
        cases ofTree t <;> rw [named, assign, if_neg hne] <;> rfl
  rw [setAt]
  exact congrArg (EStateM.Result.ok ()) ha

theorem itemSlot_placed (place : Option String) {items : List Value} {i : Nat} {a : Value}
    (h : items[i]? = some a) :
    ∃ slot : Slot Node,
      Backend.itemSlot (placed place (ofTree (.array items))) i = .ok (some slot) ∧
      slot.node = placed (itemPlace place) (ofTree a) ∧
      ∀ b, slot.refill (placed (itemPlace place) (ofTree b)) =
        placed place (ofTree (.array (items.set i b))) := by
  have hget : (ofItems items)[i]? = some (ofTree a) := by
    rw [ofItems_eq_map, List.getElem?_map, h]
    rfl
  cases place with
  | none =>
      refine ⟨⟨ofTree a, fun y => .list ((ofItems items).set i y)⟩, ?_, rfl, fun b => ?_⟩
      · show itemSlot (placed none (ofTree (.array items))) i = _
        rw [placed, ofTree, itemSlot, hget]
        rfl
      · show Node.list _ = ofTree _
        rw [ofTree, ofItems_eq_map, ofItems_eq_map, List.map_set]
        rfl
  | some name =>
      have hname : placed (some name) (ofTree (.array items)) =
          .element name [] (namedItems (ofItems items)) "" := by rw [placed, ofTree, named]
      have hitem : (namedItems (ofItems items))[i]? = some (named itemName (ofTree a)) := by
        rw [namedItems_eq_map, List.getElem?_map, hget]
        rfl
      refine ⟨⟨named itemName (ofTree a),
        fun y => .element name [] ((namedItems (ofItems items)).set i y) ""⟩, ?_, rfl, fun b => ?_⟩
      · rw [hname]
        show itemSlot _ i = _
        rw [itemSlot, if_neg ?_, hitem]
        · rfl
        · rw [kind]
          split <;> simp
      · show Node.element _ _ _ _ = placed (some name) (ofTree _)
        rw [placed, ofTree, named, namedItems_eq_map, namedItems_eq_map, ofItems_eq_map,
          ofItems_eq_map, List.map_set, List.map_set]
        rfl

theorem fieldSlot_placed (place : Option String) {fields : List (String × Value)}
    (hd : Fields.Distinct fields) {name : String} {a : Value}
    (h : List.lookup name fields = some a) :
    ∃ slot : Slot Node,
      Backend.fieldSlot (placed place (ofTree (.object fields))) name = .ok (some slot) ∧
      slot.node = placed (some name) (ofTree a) ∧
      ∀ b, slot.refill (placed (some name) (ofTree b)) =
        placed place (ofTree (.object (Fields.put name b fields))) := by
  refine ⟨⟨named name (ofTree a), fun x => .element (place.getD "") []
    (replaceNamed name x (ofFields fields)) ""⟩, ?_, rfl, fun b => ?_⟩
  · rw [placed_object]
    show fieldSlot _ name = _
    rw [fieldSlot, filter_isNamed_some hd h]
  · rw [placed_object, placed, ← replaceNamed_ofFields (Fields.mem_names_of_lookup h)]

theorem fieldSlot_placed_none (place : Option String) {fields : List (String × Value)}
    {name : String} (h : name ∉ Fields.names fields) :
    Backend.fieldSlot (placed place (ofTree (.object fields))) name = .ok none := by
  rw [placed_object]
  show fieldSlot _ name = _
  rw [fieldSlot, filter_isNamed_none h]

theorem setAt_ofTree {x t t' : Value} {path : Path} (w : Written x false path t t')
    (ht : t.Distinct) (hp : ∀ name, Key.name name ∈ path → name ≠ "") (place : Option String)
    (hplace : place ≠ some "") :
    setAt (ofTree x) false path (placed place (ofTree t)) = .ok () (placed place (ofTree t')) := by
  induction w generalizing place with
  | @target t =>
      rw [Tree.stored_eq_self (by simp)]
      exact setAt_root x t hplace
  | item hi _ ih =>
      obtain ⟨slot, hs, hn, hr⟩ := itemSlot_placed place hi
      have hitem : itemPlace place ≠ some "" := by cases place <;> simp [itemPlace, itemName]
      have hb := ih (Tree.hereditary_distinct.item ht (List.mem_of_getElem? hi))
        (fun name h => hp name (List.mem_cons_of_mem _ h)) (itemPlace place) hitem
      simp only [setAt, hs, Slot.edit, hn, hb, hr]
  | @field fields name rest a b hf _ ih =>
      obtain ⟨slot, hs, hn, hr⟩ := fieldSlot_placed place ht.1 hf
      have hname : some name ≠ some "" := fun he => hp name List.mem_cons_self (Option.some.inj he)
      have hb := ih (Tree.hereditary_distinct.find ht hf)
        (fun name h => hp name (List.mem_cons_of_mem _ h)) (some name) hname
      simp only [setAt, hs, Slot.edit, hn, hb, hr]
  | fresh hn => simp only [setAt, fieldSlot_placed_none place hn, insertField_object place ht.1]
  | @branch fields name next rest b hn _ ih =>
      have hb := ih Tree.hereditary_distinct.object
        (fun name h => hp name (List.mem_cons_of_mem _ h)) none (by simp)
      have hempty : placed none (ofTree (.object [])) = Backend.emptyFor (.name next) := rfl
      rw [hempty, placed] at hb
      rw [setAt]
      simp only [fieldSlot_placed_none place hn, hb, insertField_object place ht.1]

theorem removeField_placed (place : Option String) (name : String)
    (fields : List (String × Value)) :
    ∃ found, Backend.removeField name (placed place (ofTree (.object fields))) =
      .ok found (placed place (ofTree (.object (Fields.erase name fields)))) := by
  rw [placed_object, placed_object]
  show ∃ found, removeField name _ = _
  rw [removeField, ← filter_not_isNamed]
  split <;> exact ⟨_, rfl⟩

theorem kind_placed (place : Option String) {fields : List (String × Value)} {name : String}
    (h : name ∈ Fields.names fields) :
    Backend.kind (placed place (ofTree (.object fields))) = .object := by
  rw [placed_object]
  show kind _ = _
  cases fields with
  | nil => cases h
  | cons field rest => rfl

theorem remove_ofTree {t t' : Value} {path : Path} (r : Removed path t t') (ht : t.Distinct)
    (place : Option String) (hplace : place = none ∨ path ≠ []) :
    remove path (placed place (ofTree t)) = .ok (placed place (ofTree t')) := by
  induction r generalizing place with
  | root =>
      obtain rfl := hplace.resolve_right (fun h => h rfl)
      rfl
  | @last fields name =>
      obtain ⟨found, hr⟩ := removeField_placed place name fields
      rw [remove, hr]
  | @field fields name next rest a b hf _ ih =>
      obtain ⟨slot, hs, hn, hr⟩ := fieldSlot_placed place ht.1 hf
      have hb := ih (Tree.hereditary_distinct.find ht hf) (some name) (Or.inr (by simp))
      have hk := kind_placed place (Fields.mem_names_of_lookup hf)
      simp only [remove, hk, hs, hn, hb, hr]

/-- Writes and removals that a value admits are admitted by its node, and leave the node of the
value that they leave. Only the names on the path have to be nonempty. -/
theorem set_remove_ofValue {t x : Value} (ht : t.Distinct) (hx : x.Distinct) {path : Path}
    (hp : ∀ name, Key.name name ∈ path → name ≠ "") :
    (∀ t', Backend.set t path x false = .ok t' → ∃ n y n' : Node,
      ofValue t = .ok n ∧ ofValue x = .ok y ∧ ofValue t' = .ok n' ∧
        Backend.set n path y false = .ok n') ∧
    (∀ t', remove path t = .ok t' → ∃ n n' : Node,
      ofValue t = .ok n ∧ ofValue t' = .ok n' ∧ remove path n = .ok n') := by
  constructor
  · intro t' hs
    have w := Tree.written_of_set hx hs
    have hd := w.hereditary Tree.hereditary_distinct hx ht
    have hset := setAt_ofTree w ht hp none (by simp)
    refine ⟨ofTree t, ofTree x, ofTree t', ofValue_eq ht, ofValue_eq hx, ofValue_eq hd, ?_⟩
    rw [placed, placed] at hset
    rw [Backend.set, hset]
  · intro t' hr
    have r := Tree.removed_of_remove hr
    have hd := r.hereditary Tree.hereditary_distinct trivial ht
    exact ⟨ofTree t, ofTree t', ofValue_eq ht, ofValue_eq hd, remove_ofTree r ht none (Or.inl rfl)⟩

/-- An array stored in a branch below an item, where the items are elements named for the array. -/
theorem set_remove_ofValue_item :
    ∃ n y n' : Node,
      ofValue (Tree.object [("a", .array [.array [Value.int 1], .object [("b", Value.null)]])]) =
        .ok n ∧
      ofValue (Tree.array [Value.bool true]) = .ok y ∧
      ofValue (Tree.object [("a", .array [.array [Value.int 1],
        .object [("b", Value.null), ("c", .object [("d", .array [Value.bool true])])]])]) = .ok n' ∧
      Backend.set n [.name "a", .index 1, .name "c", .name "d"] y false = .ok n' := by
  have hp : ∀ name, Key.name name ∈ [.name "a", .index 1, .name "c", .name "d"] → name ≠ "" := by
    rintro name h rfl
    simp at h
  exact (set_remove_ofValue
    (t := Tree.object [("a", .array [.array [Value.int 1], .object [("b", Value.null)]])])
    (x := Tree.array [Value.bool true])
    (by simp [Tree.Distinct, Tree.DistinctFields, Tree.DistinctItems, Fields.Distinct,
      Fields.names])
    (by simp [Tree.Distinct, Tree.DistinctItems]) hp).1 _ rfl

end DataTree.Xml.Node
