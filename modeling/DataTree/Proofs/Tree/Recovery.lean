import DataTree.Proofs.Backend.Building
import DataTree.Proofs.Backend.Reading
import DataTree.Proofs.Primitive

namespace DataTree.Tree

variable {L : Type} [Leaf L]

theorem isNull_null [LawfulLeaf L] : Backend.isNull (Backend.null : Tree L) = true := by
  show Backend.isNull (Tree.leaf Leaf.null) = true
  rw [isNull_leaf, kind?_null]
  rfl

theorem fieldValue_object (fields : List (String × Tree L)) (name : String) :
    Backend.fieldValue (Tree.object fields) name =
      match List.lookup name fields with
      | none => .ok none
      | some child => (toValue child).map some := by
  have hfield : Backend.field (Tree.object fields) name = .ok (List.lookup name fields) := rfl
  rw [Backend.fieldValue, hfield]
  cases List.lookup name fields <;> rfl

theorem toValue_leaf {x : L} {s : Scalar} (hk : Leaf.kind? x = s.kind?)
    (hs : Leaf.scalar x = .ok s) : toValue (Tree.leaf x) = .ok (.leaf s) := by
  have hkind : Backend.kind (Tree.leaf x) = (s.kind?.map Kind.scalar).getD .null := by
    rw [kind_leaf, hk]
  have hscalar (hint : ScalarKind) (h : s.kind?.isSome = true) :
      Backend.scalar (Tree.leaf x) hint = .ok (.leaf s) := by
    show Tree.scalar _ _ = _
    rw [Tree.scalar, hk, if_pos h, hs]
    rfl
  cases s with
  | null => exact Backend.toValue_of_null hkind
  | _ =>
      rw [Backend.toValue_of_scalar hkind, hscalar _ rfl]
      rfl

theorem toValue_of_ofValue [LawfulLeaf L] {v : Value} (hd : v.Distinct) {t : Tree L}
    (h : ofValue v = .ok t) : toValue t = .ok v := by
  induction v using ind generalizing t with
  | leaf s =>
      rw [ofValue, mapError_eq_ok] at h
      obtain ⟨x, rfl, hk, hs⟩ := LawfulLeaf.of_scalar h
      exact toValue_leaf hk hs
  | array items ih =>
      rw [ofValue, ofItems_eq_eachItem] at h
      obtain ⟨nodes, hnodes, rfl⟩ := map_eq_ok.1 h
      have hitems := eachItem_inverse_of_mem
        (fun x hx y hy => ih x hx (hereditary_distinct.item hd hx) hy) hnodes 0
      show toValue (Tree.array nodes) = _
      rw [Backend.toValue_of_array rfl rfl, hitems]
      rfl
  | object fields ih =>
      rw [ofValue, ofFields_eq_insertEach] at h
      obtain ⟨nodes, rfl, hnodes⟩ := insertEach_fresh hd.1 h
      have hread : eachField (Backend.fieldValue (Tree.object nodes)) (Fields.names fields) =
          .ok fields := by
        apply eachField_names
        intro field hm
        obtain ⟨y, hy, hof⟩ := hnodes.lookup hd.1 hm
        rw [fieldValue_object, hy]
        simp only [ih field hm (hereditary_distinct.field hd hm) hof]
        rfl
      rw [← hnodes.names_eq] at hread
      rw [Backend.toValue_of_object rfl]
      show (eachField _ (Fields.names nodes)).map Tree.object = _
      rw [hread]
      rfl

end DataTree.Tree
