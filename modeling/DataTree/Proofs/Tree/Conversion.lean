import DataTree.Conversion
import DataTree.Proofs.Tree.Image

namespace DataTree.Tree

variable {M : Type} [Leaf M] {f : Scalar → M}

theorem ofItems_eq {items : List Value}
    (h : ∀ x ∈ items, ofValue x = .ok (x.mapLeaves f)) (index : Nat) :
    ofItems index items = .ok (items.map (mapLeaves f)) := by
  induction items generalizing index with
  | nil => rfl
  | cons x xs ih =>
      rw [ofItems, h x List.mem_cons_self, ih (fun y hy => h y (List.mem_cons_of_mem _ hy))]
      rfl

theorem ofFields_eq {fields : List (String × Value)}
    (h : ∀ field ∈ fields, ofValue field.2 = .ok (field.2.mapLeaves f))
    (done : List (String × Value)) :
    ofFields fields ((object done).mapLeaves f) =
      .ok ((object (Fields.putAll fields done)).mapLeaves f) := by
  induction fields generalizing done with
  | nil => rfl
  | cons field rest ih =>
      obtain ⟨name, x⟩ := field
      have hx : ofValue x = .ok (x.mapLeaves f) := h _ List.mem_cons_self
      rw [ofFields, hx, Fields.putAll_cons,
        ← ih (fun y hy => h y (List.mem_cons_of_mem _ hy)), mapLeaves_object, mapLeaves_object,
        ← Fields.put_mapValues]
      rfl

theorem ofValue_eq {p : Scalar → Prop} (hp : ∀ s, p s → ofScalar s = .ok (leaf (f s))) {v : Value}
    (hd : v.Distinct) (hv : v.Every p) : ofValue v = .ok (v.mapLeaves f) := by
  induction v using ind with
  | leaf s => rw [ofValue, hp s hv]; rfl
  | array items ih =>
      have hitems := ofItems_eq (fun x hx => ih x hx (hereditary_distinct.item hd hx)
        ((hereditary_every p).item hv hx)) 0
      rw [ofValue, hitems, mapLeaves_array]
      rfl
  | object fields ih =>
      have hfields := ofFields_eq (fun field hf => ih field hf (hereditary_distinct.field hd hf)
        ((hereditary_every p).field hv hf)) []
      rw [← Fields.ofPairs, Fields.ofPairs_of_distinct hd.1] at hfields
      rw [ofValue]
      exact hfields

theorem ofValue_self {v : Value} (hd : v.Distinct) : (ofValue v : Except Error Value) = .ok v := by
  have hscalar (s : Scalar) (_ : True) : ofScalar s = .ok (Tree.leaf (id s)) := by cases s <;> rfl
  rw [ofValue_eq hscalar hd (every_of_forall (fun _ => trivial) v), mapLeaves_id]

end DataTree.Tree
