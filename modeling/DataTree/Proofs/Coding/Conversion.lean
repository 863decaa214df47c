import DataTree.Proofs.Coding.RoundTrip
import DataTree.Proofs.Coding.Shared
import DataTree.Proofs.Tree.Conversion

namespace DataTree

variable {S : Type} [Backend S]

theorem writeLeaf_eq_ofValue {p : Primitive} {x : p.Carrier} {v : Value}
    (h : writeLeaf p x = .ok v) :
    ((writeLeaf p x : Except Fault S)).mapError Error.root = ofValue v := by
  obtain ⟨w, hw, hv⟩ := bind_eq_ok.1 h
  obtain ⟨-, s, rfl, -⟩ := Primitive.ofScalar_toScalar hw
  rw [Tree.ofValue_self (v := .leaf s) trivial] at hv
  cases hv
  rw [writeLeaf, hw]
  show ((ofValue (.leaf s) : Except Error S).mapError (·.fault)).mapError Error.root = _
  rw [ofValue]
  cases (ofScalar s : Except Fault S) <;> rfl

theorem eachItem_eq_ofValue {α : Type} {f : α → Except Error Value} {g : α → Except Error S}
    {xs : List α} (hfg : ∀ x ∈ xs, ∀ y, f x = .ok y → g x = ofValue y) {v : Value}
    (h : (eachItem f 0 xs).map Backend.array = .ok v) :
    (eachItem g 0 xs).map Backend.array = ofValue v := by
  obtain ⟨nodes, hnodes, rfl⟩ := map_eq_ok.1 h
  have hall : List.Forall₂ (fun x y => ofValue y = g x) xs nodes :=
    forall₂_eachItem hnodes fun x hm y hy => (hfg x hm y hy).symm
  show _ = ofValue (Tree.array nodes)
  rw [ofValue, ofItems_eq_eachItem, eachItem_of_forall₂ hall]

theorem insertEach_eq_ofValue {α : Type} {f : α → Except Error Value} {g : α → Except Error S}
    {entries : List (String × α)} (hd : Fields.Distinct entries)
    (hfg : ∀ entry ∈ entries, ∀ y, f entry.2 = .ok y → g entry.2 = ofValue y) {v : Value}
    (h : insertEach f entries Backend.object = .ok v) :
    insertEach g entries Backend.object = ofValue v := by
  obtain ⟨fields, rfl, hfields⟩ := Tree.insertEach_fresh hd h
  have hall : Fields.Pointwise (fun x y => ofValue y = g x) entries fields :=
    hfields.imp fun entry hm y hy => (hfg entry hm y hy).symm
  rw [ofValue, ofFields_eq_insertEach, insertEach_of_pointwise hall]

namespace Codable

variable {D : Empty → Type}

theorem render_eq_ofValue {made : (y : Empty) → D y → Except Error Value}
    {made' : (y : Empty) → D y → Except Error S} {t : Codable Empty} {x : t.Carrier D}
    (hx : t.Distinct x) {v : Value} (h : t.render made x = .ok v) :
    t.render made' x = ofValue v := by
  induction t generalizing v with
  | prim p => exact writeLeaf_eq_ofValue (mapError_eq_ok.1 h)
  | value =>
      obtain rfl : x = v := Except.ok.inj ((Tree.ofValue_self hx).symm.trans h)
      rfl
  | list item ih => exact eachItem_eq_ofValue (fun x hm y hy => ih (hx x hm) hy) h
  | option content ih =>
      cases x with
      | none =>
          cases h
          rfl
      | some x => exact ih (hx x rfl) h
  | boxed content ih => exact ih hx h
  | sortedMap content ih =>
      exact insertEach_eq_ofValue (SortedMap.distinct x)
        (fun entry hm y hy => ih (hx entry hm) hy) h
  | dictionary content ih =>
      exact insertEach_eq_ofValue x.distinct (fun entry hm y hy => ih (hx entry hm) hy) h
  | custom y => exact y.elim

end Codable

theorem SharedType.write_eq_ofValue {t : SharedType} {x : t.mapped.Carrier}
    (hx : t.codable.Distinct (cast t.carrier_eq x)) {v : Value}
    (h : t.mapped.writer.write x = .ok v) :
    (t.mapped.writer.write x : Except Error S) = ofValue v := by
  rw [← t.render_codable] at h ⊢
  exact Codable.render_eq_ofValue hx h

/-- Whatever can be encoded as a value of the library, or mapped into one, becomes the same JSON
tree and the same XML tree, or fails with the same error, as that value when it is converted. -/
theorem encodes_as_converted {U : Type} (naming : Naming) (user : U) :
    (∀ (t : Codable Empty) (x : t.Carrier fun y => y.elim) (v : Value), t.Distinct x →
      (t.toTree (fun y => y.elim) naming user x).1 = .ok v →
      (t.toTree (fun y => y.elim) naming user x).1 = (ofValue v : Except Error Json) ∧
      (t.toTree (fun y => y.elim) naming user x).1 = (ofValue v : Except Error Xml.Node)) ∧
    ∀ (t : SharedType) (x : t.mapped.Carrier) (v : Value),
      t.codable.Distinct (cast t.carrier_eq x) → t.mapped.writer.write x = .ok v →
      t.mapped.writer.write x = (ofValue v : Except Error Json) ∧
      t.mapped.writer.write x = (ofValue v : Except Error Xml.Node) := by
  constructor
  · intro t x v hx h
    rw [Codable.toTree_eq_render] at h
    rw [Codable.toTree_eq_render, Codable.toTree_eq_render]
    exact ⟨Codable.render_eq_ofValue hx h, Codable.render_eq_ofValue hx h⟩
  · intro t x v hx h
    exact ⟨SharedType.write_eq_ofValue hx h, SharedType.write_eq_ofValue hx h⟩

/-- A double that JSON does not have, in an object behind a null, and a list that XML holds. -/
theorem encodes_as_converted_nan :
    let t : Codable Empty := .list (.option (.sortedMap (.boxed (.prim .double))))
    let map : SortedMap Double := ⟨[("x", .nan)], List.pairwise_singleton _ _⟩
    let x : t.Carrier (fun y => y.elim) := [none, some map]
    let v : Value := .array [Value.null, .object [("x", Value.double .nan)]]
    let shared : SharedType := .list (.option .value)
    let y : shared.mapped.Carrier := [none, some (.object [("x", Value.bool true)])]
    let w : Value := .array [Value.null, .object [("x", Value.bool true)]]
    (t.toTree (fun y => y.elim) .snake () x).1 = .ok v ∧
      ((t.toTree (fun y => y.elim) .snake () x).1 : Except Error Json) =
        .error ⟨.dataCorrupted "NaN cannot be stored as a JSON number", [.index 1, .name "x"]⟩ ∧
      shared.mapped.writer.write y = .ok w ∧
      shared.mapped.writer.write y = .ok (Xml.Node.list [.empty,
        .element "" [] [.element "x" [] [] "true"] ""]) := by
  intro t map x v shared y w
  have hx : t.Distinct x := by
    refine List.forall_mem_cons.2 ⟨nofun, List.forall_mem_singleton.2 fun found hfound => ?_⟩
    cases hfound
    exact List.forall_mem_singleton.2 trivial
  have hy : shared.codable.Distinct (cast shared.carrier_eq y) := by
    refine List.forall_mem_cons.2 ⟨nofun, List.forall_mem_singleton.2 fun found hfound => ?_⟩
    cases hfound
    exact ⟨List.nodup_singleton "x", trivial, trivial⟩
  have hv : ((t.toTree (fun y => y.elim) .snake () x).1 : Except Error Value) = .ok v := by
    rw [Codable.toTree_eq_render]
    rfl
  have hw : (shared.mapped.writer.write y : Except Error Value) = .ok w := rfl
  obtain ⟨hcoded, hmapped⟩ := encodes_as_converted .snake ()
  exact ⟨hv, (hcoded t x v hx hv).1.trans rfl, hw, (hmapped shared y w hy hw).2.trans rfl⟩

end DataTree
