import DataTree.Proofs.Json.Agreement
import DataTree.Proofs.Tree.FirstLeaf

namespace DataTree.Json

def Refused : DataTree.Scalar → Fault → Prop
  | .double x, fault => x.isFinite = false ∧
    fault = .dataCorrupted (Layout.plain.text x ++ " cannot be stored as a JSON number")
  | _, _ => False

/-- How the library's own trees refuse the leaf, which no engine integer can hold. -/
def TooLarge : Scalar → Fault → Prop
  | .number (.integer n _), fault =>
    0x7fffffffffffffff < n ∧ fault = .numberOutOfRange (toString n) "int"
  | _, _ => False

theorem leafOfScalar_eq_error {s : DataTree.Scalar} {fault : Fault} :
    (leafOfScalar s : Except Fault Scalar) = .error fault ↔ Refused s fault := by
  cases s with
  | double x =>
      show Scalar.ofDouble x = _ ↔ _ ∧ _
      rw [Scalar.ofDouble]
      split
      next hx => simp [hx]
      next hx => simp [hx, eq_comm]
  | _ => exact ⟨nofun, False.elim⟩

theorem scalarOfLeaf_integer (n : Int) (range : -0x8000000000000000 ≤ n ∧ n < 0x10000000000000000) :
    scalarOfLeaf (Scalar.number (.integer n range)) =
      if n < 0x8000000000000000 then .ok (.int (Int64.ofInt n))
      else .error (.numberOutOfRange (toString n) "int") := rfl

theorem scalarOfLeaf_eq_error {x : Scalar} {fault : Fault} :
    scalarOfLeaf x = .error fault ↔ TooLarge x fault := by
  cases x with
  | number n =>
      cases n with
      | integer n range =>
          rw [scalarOfLeaf_integer]
          show _ ↔ _ ∧ _
          split
          next hn => exact ⟨nofun, fun h => by omega⟩
          next hn =>
            have hlarge : 0x7fffffffffffffff < n := by omega
            simp [hlarge, eq_comm]
      | real x finite => exact ⟨nofun, False.elim⟩
  | _ => exact ⟨nofun, False.elim⟩

theorem scalarOfLeaf_of_leafOfScalar {s : DataTree.Scalar} {x : Scalar}
    (h : leafOfScalar s = .ok x) : scalarOfLeaf x = .ok s := by
  have hs : (ofScalar s : Except Fault Json) = .ok (.leaf x) := by
    rw [ofScalar_eq_leafOfScalar, h]
    rfl
  obtain ⟨y, hy, hkind, hscalar⟩ := LawfulLeaf.of_scalar hs
  cases hy
  rw [scalarOfLeaf, hkind, hscalar]
  cases s <;> rfl

theorem leafOfScalar_of_scalarOfLeaf {x : Scalar} {s : DataTree.Scalar}
    (h : scalarOfLeaf x = .ok s) : leafOfScalar s = .ok x := by
  cases x with
  | number n =>
      cases n with
      | integer n range =>
          rw [scalarOfLeaf_integer] at h
          split at h
          next hn =>
            cases h
            have hback : (Int64.ofInt n).toInt = n :=
              Int64.toInt_ofInt_of_le (by omega) (by omega)
            show Except.ok (Scalar.number (.ofInt64 (Int64.ofInt n))) = _
            simp only [Number.ofInt64, hback]
          next => cases h
      | real x finite =>
          cases h
          show Scalar.ofDouble x = _
          rw [Scalar.ofDouble, dif_pos finite]
  | _ =>
      cases h
      rfl

/-- A value fails to become a JSON tree where it has a double that is not finite, a JSON tree fails
to become a value where it has an integer beyond those of the library, and both with the fault of
the first such leaf in document order, at its path. In both directions, what was converted converts
back into what it was. -/
theorem converts_exactly :
    (∀ v : Value, v.Distinct →
      Tree.FailsAtFirst Refused v (ofValue v : Except DataTree.Error Json) ∧
      ∀ j : Json, ofValue v = .ok j → toValue j = .ok v) ∧
    ∀ j : Json, j.Distinct →
      Tree.FailsAtFirst TooLarge j (toValue j) ∧
      ∀ v : Value, toValue j = .ok v → ofValue v = .ok j := by
  constructor
  · intro v hd
    rw [Tree.ofValue_eq_traverse hd]
    refine ⟨Tree.failsAtFirst_traverse hd leafOfScalar_eq_error, fun j h => ?_⟩
    rw [Tree.toValue_eq_traverse (Tree.distinct_traverse hd h)]
    exact Tree.traverse_inverse scalarOfLeaf_of_leafOfScalar h
  · intro j hd
    rw [Tree.toValue_eq_traverse hd]
    refine ⟨Tree.failsAtFirst_traverse hd scalarOfLeaf_eq_error, fun v h => ?_⟩
    rw [Tree.ofValue_eq_traverse (Tree.distinct_traverse hd h)]
    exact Tree.traverse_inverse leafOfScalar_of_scalarOfLeaf h

/-- NaN in front of an infinity, a negative zero behind a name that comes later in the alphabet, and
two integers too large behind the largest that is not. -/
theorem converts_exactly_mixed :
    let v : Value := .object [("b", .array [Value.int 2, Value.double .nan]),
      ("a", Value.double (.infinity true))]
    let w : Value := .object [("b", Value.double (.finite true 0 (-1074) (by decide))),
      ("a", .array [Value.int 0, Value.null])]
    let j : Json := .array [.leaf (.number (.integer 9223372036854775807 (by decide))),
      .object [("n", .leaf (.number (.integer 9223372036854775808 (by decide))))],
      .leaf (.number (.integer 18446744073709551615 (by decide)))]
    let nan : Fault := .dataCorrupted "NaN cannot be stored as a JSON number"
    let large : Fault := .numberOutOfRange "9223372036854775808" "int"
    (∃ x, Tree.FirstLeaf (fun y => ∃ fault, Refused y fault) v [.name "b", .index 1] x ∧
      Refused x nan) ∧
    (∃ k : Json, ofValue w = .ok k ∧ toValue k = .ok w) ∧
    ∃ x, Tree.FirstLeaf (fun y => ∃ fault, TooLarge y fault) j [.index 1, .name "n"] x ∧
      TooLarge x large := by
  intro v w j nan large
  have hv : v.Distinct := by
    simp [v, Tree.Distinct, Tree.DistinctFields, Tree.DistinctItems, Fields.Distinct, Fields.names]
  have hw : w.Distinct := by
    simp [w, Tree.Distinct, Tree.DistinctFields, Tree.DistinctItems, Fields.Distinct, Fields.names]
  have hj : j.Distinct := by
    simp [j, Tree.Distinct, Tree.DistinctFields, Tree.DistinctItems, Fields.Distinct, Fields.names]
  have hnan : (ofValue v : Except DataTree.Error Json) = .error ⟨nan, [.name "b", .index 1]⟩ := rfl
  have hlarge : toValue j = .error ⟨large, [.index 1, .name "n"]⟩ := by
    rw [Tree.toValue_eq_traverse hj]
    rfl
  exact ⟨((converts_exactly.1 v hv).1.first _ _).1 hnan,
    ⟨_, rfl, (converts_exactly.1 w hw).2 _ rfl⟩, ((converts_exactly.2 j hj).1.first _ _).1 hlarge⟩

end DataTree.Json
