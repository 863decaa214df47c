import DataTree.Proofs.Tree.Removed

namespace DataTree.Tree

open Backend (setAt mergeFields emptyFor)

variable {L M : Type}

mutual

def mapLeaves (f : L → M) : Tree L → Tree M
  | .leaf x => .leaf (f x)
  | .array items => .array (mapItems f items)
  | .object fields => .object (mapFields f fields)

def mapItems (f : L → M) : List (Tree L) → List (Tree M)
  | [] => []
  | x :: xs => x.mapLeaves f :: mapItems f xs

def mapFields (f : L → M) : List (String × Tree L) → List (String × Tree M)
  | [] => []
  | (name, x) :: rest => (name, x.mapLeaves f) :: mapFields f rest

end

@[simp] theorem mapLeaves_array (f : L → M) (items : List (Tree L)) :
    (array items).mapLeaves f = array (items.map (mapLeaves f)) := by
  rw [mapLeaves]
  congr 1
  induction items with
  | nil => rfl
  | cons x xs ih => rw [mapItems, ih, List.map_cons]

@[simp] theorem mapLeaves_object (f : L → M) (fields : List (String × Tree L)) :
    (object fields).mapLeaves f = object (Fields.mapValues (mapLeaves f) fields) := by
  rw [mapLeaves]
  congr 1
  induction fields with
  | nil => rfl
  | cons field rest ih => rw [mapFields, ih]; rfl

theorem mapLeaves_id (t : Tree L) : t.mapLeaves id = t := by
  induction t using ind with
  | leaf x => rfl
  | array items ih =>
      rw [mapLeaves_array, List.map_congr_left ih, List.map_id']
  | object fields ih =>
      have hfields : Fields.mapValues (mapLeaves id) fields = fields := by
        refine (List.map_congr_left fun field hf => ?_).trans (List.map_id fields)
        exact Prod.ext rfl (ih field hf)
      rw [mapLeaves_object, hfields]

/-- What an edit gives and leaves, with the trees in it exchanged. -/
def mapResult {ε α β : Type} (g : α → β) (f : L → M) :
    EStateM.Result ε (Tree L) α → EStateM.Result ε (Tree M) β
  | .ok a t => .ok (g a) (t.mapLeaves f)
  | .error e t => .error e (t.mapLeaves f)

variable [Leaf L] [Leaf M] {f : L → M} (hk : ∀ x, Leaf.kind? (f x) = Leaf.kind? x)

include hk

theorem kind_mapLeaves (t : Tree L) : Backend.kind (t.mapLeaves f) = Backend.kind t := by
  cases t with
  | leaf x => exact congrArg (fun k => (Option.map Kind.scalar k).getD .null) (hk x)
  | array items => rw [mapLeaves_array]; rfl
  | object fields => rw [mapLeaves_object]; rfl

theorem child_mapLeaves (t : Tree L) (key : Key) :
    Backend.child (t.mapLeaves f) key =
      (Backend.child t key).map (Option.map (mapLeaves f)) := by
  have hkind := kind_mapLeaves hk t
  cases t with
  | leaf x =>
      cases key with
      | name name => exact congrArg (fun k => Except.error (Fault.expectedObject k)) hkind
      | index i => exact congrArg (fun k => Except.error (Fault.expectedArray k)) hkind
  | array items =>
      rw [mapLeaves_array]
      cases key with
      | name name => rfl
      | index i => exact congrArg Except.ok List.getElem?_map
  | object fields =>
      rw [mapLeaves_object]
      cases key with
      | name name => exact congrArg Except.ok (Fields.lookup_mapValues _ _ _)
      | index i => rfl

theorem get_mapLeaves (t : Tree L) (path : Path) :
    Backend.get (t.mapLeaves f) path =
      (Backend.get t path).map (Option.map (mapLeaves f)) := by
  induction path generalizing t with
  | nil => rfl
  | cons key rest ih =>
      rw [Backend.get, Backend.get, child_mapLeaves hk]
      cases Backend.child t key with
      | error fault => rfl
      | ok next =>
          cases next with
          | none => rfl
          | some a =>
              simp only [Except.map, Option.map_some, ih]
              cases Backend.get a rest <;> rfl

theorem insertField_mapLeaves (name : String) (x t : Tree L) :
    Backend.insertField name (x.mapLeaves f) (t.mapLeaves f) =
      mapResult id f (Backend.insertField name x t) := by
  have hkind := kind_mapLeaves hk t
  cases t with
  | leaf y =>
      exact congrArg (fun k => EStateM.Result.error (Fault.expectedObject k) (leaf (f y))) hkind
  | array items => rw [mapLeaves_array]; exact congrArg _ (mapLeaves_array f items).symm
  | object fields =>
      rw [mapLeaves_object]
      show EStateM.Result.ok () _ = EStateM.Result.ok () _
      rw [Fields.put_mapValues, ← mapLeaves_object]

theorem removeField_mapLeaves (name : String) (t : Tree L) :
    Backend.removeField name (t.mapLeaves f) =
      mapResult (Option.map (mapLeaves f)) f (Backend.removeField name t) := by
  have hkind := kind_mapLeaves hk t
  cases t with
  | leaf y =>
      exact congrArg (fun k => EStateM.Result.error (Fault.expectedObject k) (leaf (f y))) hkind
  | array items => rw [mapLeaves_array]; exact congrArg _ (mapLeaves_array f items).symm
  | object fields =>
      rw [mapLeaves_object]
      show EStateM.Result.ok _ _ = EStateM.Result.ok _ _
      rw [Fields.lookup_mapValues, Fields.erase_mapValues, ← mapLeaves_object]

theorem mergeFields_mapLeaves (names : List String) (source t : Tree L) :
    mergeFields names (source.mapLeaves f) (t.mapLeaves f) =
      mapResult id f (mergeFields names source t) := by
  induction names generalizing source t with
  | nil => rfl
  | cons name names ih =>
      rw [mergeFields, mergeFields, removeField_mapLeaves hk]
      cases Backend.removeField name source with
      | error fault rest => rfl
      | ok child rest =>
          cases child with
          | none => exact ih rest t
          | some x =>
              have hi := insertField_mapLeaves hk name x t
              show EStateM.bind (Backend.insertField name (x.mapLeaves f))
                  (fun _ => mergeFields names (rest.mapLeaves f)) (t.mapLeaves f) =
                mapResult id f (EStateM.bind (Backend.insertField name x)
                  (fun _ => mergeFields names rest) t)
              rw [EStateM.bind, EStateM.bind, hi]
              cases Backend.insertField name x t with
              | error fault t => rfl
              | ok u t => exact ih rest t

omit hk in
theorem fieldNames_mapLeaves (t : Tree L) :
    Backend.fieldNames (t.mapLeaves f) = Backend.fieldNames t := by
  cases t with
  | leaf x => rfl
  | array items => rw [mapLeaves_array]; rfl
  | object fields => rw [mapLeaves_object]; exact Fields.names_mapValues _ _

omit hk in
theorem emptyFor_mapLeaves (key : Key) :
    (emptyFor key : Tree L).mapLeaves f = (emptyFor key : Tree M) := by
  cases key <;> rfl

theorem setAt_target_mapLeaves (x : Tree L) (merge : Bool) (t : Tree L) :
    setAt (x.mapLeaves f) merge [] (t.mapLeaves f) = mapResult id f (setAt x merge [] t) := by
  rw [setAt, setAt, kind_mapLeaves hk, kind_mapLeaves hk, Backend.mergeObject,
    fieldNames_mapLeaves, mergeFields_mapLeaves hk]
  split
  next =>
    rw [Backend.mergeObject]
    cases mergeFields (Backend.fieldNames x) x t <;> rfl
  next => rfl

omit hk in
theorem setAt_array_mapLeaves {x : Tree L} {merge : Bool} {rest : Path}
    (ih : ∀ a, setAt (x.mapLeaves f) merge rest (a.mapLeaves f) =
      mapResult id f (setAt x merge rest a)) (i : Nat) (items : List (Tree L)) :
    setAt (x.mapLeaves f) merge (.index i :: rest) ((array items).mapLeaves f) =
      mapResult id f (setAt x merge (.index i :: rest) (array items)) := by
  have hmap : (items.map (mapLeaves f))[i]? = items[i]?.map (mapLeaves f) := List.getElem?_map
  rw [mapLeaves_array]
  cases hi : items[i]? with
  | none =>
      rw [hi] at hmap
      rw [setAt_outOfBounds _ _ hi, setAt_outOfBounds _ _ hmap, List.length_map, mapResult,
        mapLeaves_array]
  | some a =>
      rw [hi] at hmap
      rw [setAt_item _ _ hmap, setAt_item _ _ hi, Slot.edit, Slot.edit, ih a]
      cases setAt x merge rest a <;> simp [mapResult, List.map_set]

omit hk in
theorem setAt_object_mapLeaves {x : Tree L} {merge : Bool} {rest : Path}
    (ih : ∀ a, setAt (x.mapLeaves f) merge rest (a.mapLeaves f) =
      mapResult id f (setAt x merge rest a)) (name : String) (fields : List (String × Tree L)) :
    setAt (x.mapLeaves f) merge (.name name :: rest) ((object fields).mapLeaves f) =
      mapResult id f (setAt x merge (.name name :: rest) (object fields)) := by
  have hmap := Fields.lookup_mapValues (mapLeaves f) name fields
  rw [mapLeaves_object]
  cases hf : List.lookup name fields with
  | some a =>
      rw [hf] at hmap
      rw [setAt_field _ _ hmap, setAt_field _ _ hf, Slot.edit, Slot.edit, ih a]
      cases setAt x merge rest a <;> simp [mapResult, Fields.put_mapValues]
  | none =>
      have hn := Fields.lookup_eq_none.1 hf
      have hn' : name ∉ Fields.names (Fields.mapValues (mapLeaves f) fields) := by
        rwa [Fields.names_mapValues]
      cases rest with
      | nil =>
          rw [setAt_fresh _ _ hn, setAt_fresh _ _ hn', Fields.put_mapValues, ← mapLeaves_object]
          rfl
      | cons next rest =>
          have hb := ih (emptyFor next)
          rw [emptyFor_mapLeaves] at hb
          rw [setAt_branch _ _ hn, setAt_branch _ _ hn', hb]
          cases setAt x merge (next :: rest) (emptyFor next) <;>
            simp [mapResult, Fields.put_mapValues]

theorem setAt_mapLeaves (x : Tree L) (merge : Bool) (path : Path) (t : Tree L) :
    setAt (x.mapLeaves f) merge path (t.mapLeaves f) =
      mapResult id f (setAt x merge path t) := by
  induction path generalizing t with
  | nil => exact setAt_target_mapLeaves hk x merge t
  | cons key rest ih =>
      have hkind := kind_mapLeaves hk t
      cases key with
      | index i =>
          by_cases ht : Backend.kind t = .array
          · obtain ⟨items, rfl⟩ := kind_eq_array.1 ht
            exact setAt_array_mapLeaves ih i items
          · rw [setAt_index_mismatch _ _ ht, setAt_index_mismatch _ _ (hkind ▸ ht), hkind]
            rfl
      | name name =>
          by_cases ht : Backend.kind t = .object
          · obtain ⟨fields, rfl⟩ := kind_eq_object.1 ht
            exact setAt_object_mapLeaves ih name fields
          · rw [setAt_name_mismatch _ _ ht, setAt_name_mismatch _ _ (hkind ▸ ht), hkind]
            rfl

theorem set_mapLeaves (x : Tree L) (merge : Bool) (path : Path) (t : Tree L) :
    Backend.set (t.mapLeaves f) path (x.mapLeaves f) merge =
      (Backend.set t path x merge).map (mapLeaves f) := by
  rw [Backend.set, Backend.set, setAt_mapLeaves hk]
  cases setAt x merge path t <;> rfl

theorem remove_mapLeaves (hn : f Leaf.null = Leaf.null) (path : Path) (t : Tree L) :
    Backend.remove path (t.mapLeaves f) = (Backend.remove path t).map (mapLeaves f) := by
  induction path generalizing t with
  | nil => exact congrArg (fun x => Except.ok (leaf x)) hn.symm
  | cons key rest ih =>
      have hkind := kind_mapLeaves hk t
      cases key with
      | index i =>
          rw [remove_index, remove_index, hkind]
          rfl
      | name name =>
          by_cases ht : Backend.kind t = .object
          · obtain ⟨fields, rfl⟩ := kind_eq_object.1 ht
            have hmap := Fields.lookup_mapValues (mapLeaves f) name fields
            rw [mapLeaves_object]
            cases rest with
            | nil =>
                rw [remove_last, remove_last, Fields.erase_mapValues, ← mapLeaves_object]
                rfl
            | cons next rest =>
                cases hf : List.lookup name fields with
                | none =>
                    rw [hf] at hmap
                    rw [remove_missing hf, remove_missing hmap]
                    rfl
                | some a =>
                    rw [hf] at hmap
                    rw [remove_field hf, remove_field hmap, ih]
                    cases Backend.remove (next :: rest) a <;>
                      simp [Except.map, Fields.put_mapValues]
          · rw [remove_mismatch ht, remove_mismatch (hkind ▸ ht), hkind]
            rfl

end DataTree.Tree
