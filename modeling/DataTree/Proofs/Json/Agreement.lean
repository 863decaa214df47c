import DataTree.Json
import DataTree.Proofs.Tree.Conversion
import DataTree.Proofs.Tree.PathLaw

namespace DataTree

/-- The same error, or results that stand for one another. -/
def Alike {α β : Type} (r : α → β → Prop) : Except Error α → Except Error β → Prop
  | .ok a, .ok b => r a b
  | .error e, .error e' => e = e'
  | _, _ => False

/-- JSON has a number for every scalar but the doubles that are not finite. -/
def Scalar.IsFinite : Scalar → Prop
  | .double x => x.isFinite = true
  | _ => True

namespace Json

def Renders (v : Value) (j : Json) : Prop := ofValue v = .ok j

/-- The JSON leaf of a scalar. Doubles that have none stand as zero, which keeps the kind. -/
def counterpart : DataTree.Scalar → Scalar
  | .null => .null
  | .bool b => .bool b
  | .int i => .number (.ofInt64 i)
  | .double x =>
    if h : x.isFinite = true then .number (.real x h)
    else .number (.real (.finite false 0 (-1074) (by decide)) rfl)
  | .string s => .string s

theorem kind?_counterpart (s : DataTree.Scalar) : Leaf.kind? (counterpart s) = Leaf.kind? s := by
  cases s with
  | double x =>
      rw [counterpart]
      split <;> rfl
  | _ => rfl

theorem ofScalar_counterpart {s : DataTree.Scalar} (h : s.IsFinite) :
    ofScalar s = .ok (Tree.leaf (counterpart s)) := by
  cases s with
  | double x =>
      have hx : x.isFinite = true := h
      show (Scalar.ofDouble x).map Tree.leaf = _
      rw [Scalar.ofDouble, dif_pos hx, counterpart, dif_pos hx]
      rfl
  | _ => rfl

theorem renders_mapLeaves {v : Value} (hd : v.Distinct) (hf : v.Every DataTree.Scalar.IsFinite) :
    Renders v (v.mapLeaves counterpart) :=
  Tree.ofValue_eq (fun _ => ofScalar_counterpart) hd hf

end Json

namespace Value

theorem walk_eq_get (walked : Path) (v : Value) (path : Path) :
    walk walked v path = (Backend.get v path).mapError (Error.within walked) := by
  induction path generalizing walked v with
  | nil => rw [walk]; rfl
  | cons key rest ih =>
      cases key with
      | name name =>
          cases v with
          | object fields =>
              cases hf : List.lookup name fields with
              | none => rw [walk, hf, Tree.get_name_none hf]; rfl
              | some a =>
                  rw [walk, hf, Tree.get_name_some hf]
                  simp only [ih, mapError_within]
          | _ => rfl
      | index i =>
          cases v with
          | array items =>
              cases hi : items[i]? with
              | none => rw [walk, hi, Tree.get_index_none hi]; rfl
              | some a =>
                  rw [walk, hi, Tree.get_index_some hi]
                  simp only [ih, mapError_within]
          | _ => rfl

theorem lookup_eq_get (v : Value) (path : Path) : lookup v path = Backend.get v path := by
  rw [lookup, walk_eq_get]
  cases Backend.get v path <;> rfl

end Value

theorem alike_map {α β : Type} {r : α → β → Prop} {g : α → β} {outcome : Except Error α}
    (h : ∀ a, outcome = .ok a → r a (g a)) : Alike r outcome (outcome.map g) := by
  cases outcome with
  | ok a => exact h a rfl
  | error e => rfl

namespace Json

/-- One step of reading, writing or removing leads from a value and its JSON tree to a value and its
JSON tree, or to the same error; and walking a value without the backend is reading it. -/
theorem renders_navigation {t x : Value} (ht : t.Distinct) (hx : x.Distinct)
    (hft : t.Every DataTree.Scalar.IsFinite) (hfx : x.Every DataTree.Scalar.IsFinite)
    (path : Path) (merge : Bool) :
    ∃ j y : Json, ofValue t = .ok j ∧ ofValue x = .ok y ∧
      Alike (Option.Rel Renders) (Backend.get t path) (Backend.get j path) ∧
      Alike Renders (Backend.set t path x merge) (Backend.set j path y merge) ∧
      Alike Renders (Backend.remove path t) (Backend.remove path j) ∧
      Value.lookup t path = Backend.get t path := by
  have hd := Tree.hereditary_distinct (L := DataTree.Scalar)
  have he := Tree.hereditary_every DataTree.Scalar.IsFinite
  refine ⟨t.mapLeaves counterpart, x.mapLeaves counterpart, renders_mapLeaves ht hft,
    renders_mapLeaves hx hfx, ?_, ?_, ?_, Value.lookup_eq_get t path⟩
  · rw [Tree.get_mapLeaves kind?_counterpart]
    refine alike_map fun found hg => ?_
    cases found with
    | none => exact .none
    | some v => exact .some (renders_mapLeaves (hd.get ht hg) (he.get hft hg))
  · rw [Tree.set_mapLeaves kind?_counterpart]
    refine alike_map fun t' hs => ?_
    have w := Tree.written_of_set hx hs
    exact renders_mapLeaves (w.hereditary hd hx ht) (w.hereditary he hfx hft)
  · rw [Tree.remove_mapLeaves kind?_counterpart rfl]
    refine alike_map fun t' hr => ?_
    have w := Tree.removed_of_remove hr
    exact renders_mapLeaves (w.hereditary hd trivial ht) (w.hereditary he trivial hft)

/-- A merge into an item of an array, beside a double. -/
theorem renders_navigation_item :
    ∃ j y j' : Json,
      ofValue (Tree.object [("a", .array [Value.double (.ofInt 3), .object []])]) = .ok j ∧
      ofValue (Tree.object [("b", Value.int 7)]) = .ok y ∧
      Backend.set j [.name "a", .index 1] y true = .ok j' ∧
      Renders (.object [("a", .array [Value.double (.ofInt 3), .object [("b", Value.int 7)]])])
        j' := by
  obtain ⟨j, y, hj, hy, -, hs, -, -⟩ := renders_navigation
    (t := Tree.object [("a", .array [Value.double (.ofInt 3), .object []])])
    (x := Tree.object [("b", Value.int 7)])
    (by simp [Tree.Distinct, Tree.DistinctFields, Tree.DistinctItems, Fields.Distinct,
      Fields.names])
    (by simp [Tree.Distinct, Tree.DistinctFields, Fields.Distinct, Fields.names])
    ⟨⟨(by decide : (Binary.ofInt 3 : Double).isFinite = true), trivial, trivial⟩, trivial⟩
    ⟨trivial, trivial⟩ [.name "a", .index 1] true
  cases hset : Backend.set j [.name "a", .index 1] y true with
  | error e =>
      rw [hset] at hs
      exact hs.elim
  | ok j' =>
      rw [hset] at hs
      exact ⟨j, y, j', hj, hy, hset, hs⟩

end Json

end DataTree
