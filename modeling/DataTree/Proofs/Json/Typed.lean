import DataTree.Proofs.Coding.Decoded
import DataTree.Proofs.Json.Agreement
import DataTree.Proofs.Mapping.Types

namespace DataTree

namespace Json

def Representable (v : Value) : Prop := v.Distinct ∧ v.Every DataTree.Scalar.IsFinite

abbrev rendered (v : Value) : Json := v.mapLeaves counterpart

theorem Representable.renders {v : Value} (h : Representable v) : Renders v (rendered v) :=
  renders_mapLeaves h.1 h.2

theorem Representable.item {v x : Value} {items : List Value} (h : Representable v)
    (hi : Backend.items v = some items) (hx : x ∈ items) : Representable x := by
  cases v with
  | array all =>
      cases hi
      exact ⟨Tree.hereditary_distinct.item h.1 hx, (Tree.hereditary_every _).item h.2 hx⟩
  | _ => cases hi

theorem Representable.field {v x : Value} {name : String} (h : Representable v)
    (hx : Backend.field v name = .ok (some x)) : Representable x := by
  cases v with
  | object fields =>
      have hfind : List.lookup name fields = some x := Except.ok.inj hx
      exact ⟨Tree.hereditary_distinct.find h.1 hfind, (Tree.hereditary_every _).find h.2 hfind⟩
  | _ => cases hx

theorem Representable.get {v x : Value} {path : Path} (h : Representable v)
    (hx : Backend.get v path = .ok (some x)) : Representable x :=
  ⟨Tree.hereditary_distinct.get h.1 hx, (Tree.hereditary_every _).get h.2 hx⟩

theorem kind_rendered (v : Value) : Backend.kind (rendered v) = Backend.kind v :=
  Tree.kind_mapLeaves kind?_counterpart v

theorem isNull_rendered (v : Value) : Backend.isNull (rendered v) = Backend.isNull v := by
  rw [Backend.isNull, kind_rendered, ← Backend.isNull]

theorem fieldNames_rendered (v : Value) : Backend.fieldNames (rendered v) = Backend.fieldNames v :=
  Tree.fieldNames_mapLeaves v

theorem field_rendered (v : Value) (name : String) :
    Backend.field (rendered v) name = (Backend.field v name).map (Option.map rendered) :=
  Tree.child_mapLeaves kind?_counterpart v (.name name)

theorem items_rendered (v : Value) :
    Backend.items (rendered v) = (Backend.items v).map (List.map rendered) := by
  cases v with
  | leaf s => rfl
  | array items => rw [rendered, Tree.mapLeaves_array]; rfl
  | object fields => rw [rendered, Tree.mapLeaves_object]; rfl

theorem listAbsent_rendered (v : Value) :
    Reader.listAbsent (rendered v) = Reader.listAbsent v := by
  rw [Reader.listAbsent, Reader.listAbsent, isNull_rendered, items_rendered, Option.isNone_map]

theorem scalar_rendered {v : Value} (h : Representable v) (hint : ScalarKind) :
    Backend.scalar (rendered v) hint = Backend.scalar v hint := by
  have hkind := kind_rendered v
  cases v with
  | leaf s =>
      -- the leaf of a scalar in JSON gives this scalar, whichever form of number holds it
      obtain ⟨x, hx, -, hs⟩ := LawfulLeaf.of_scalar (ofScalar_counterpart h.2)
      cases hx
      show (if (Leaf.kind? (counterpart s)).isSome then (Leaf.scalar (counterpart s)).map Tree.leaf
        else .error (.typeMismatch hint.name (Backend.kind (rendered (.leaf s))))) = _
      rw [kind?_counterpart, hs, hkind]
      rfl
  | array items => exact congrArg (fun k => Except.error (Fault.typeMismatch hint.name k)) hkind
  | object fields => exact congrArg (fun k => Except.error (Fault.typeMismatch hint.name k)) hkind

theorem toValue_rendered {v : Value} (h : Representable v) : toValue (rendered v) = toValue v :=
  (Tree.toValue_of_ofValue h.1 h.renders).trans
    (Tree.toValue_of_ofValue h.1 (Tree.ofValue_self h.1)).symm

theorem readLeaf_rendered {v : Value} (h : Representable v) (p : Primitive) :
    readLeaf p (rendered v) = readLeaf p v := by
  rw [readLeaf, readLeaf, scalar_rendered h]

end Json

open Json (Representable rendered)

section Readers

variable {α β : Type}

/-- One reads from a value what the other reads from its JSON tree, or they fail alike. -/
def ReadAlike (f : Value → Except Error α) (g : Json → Except Error α) : Prop :=
  ∀ v, Representable v → g (rendered v) = f v

namespace ReadAlike

variable {f : Value → Except Error α} {g : Json → Except Error α} (h : ReadAlike f g)

include h

theorem map (k : α → β) : ReadAlike (fun v => (f v).map k) fun j => (g j).map k :=
  fun v hv => congrArg (Except.map k) (h v hv)

theorem eachItem {v : Value} (hv : Representable v) {items : List Value}
    (hi : Backend.items v = some items) (index : Nat) :
    eachItem g index (items.map rendered) = eachItem f index items := by
  rw [eachItem_map]
  exact eachItem_congr (fun x hx => h x (hv.item hi hx)) index

theorem items : ReadAlike (Codable.readItems f) (Codable.readItems g) := by
  intro v hv
  rw [Codable.readItems, Codable.readItems, Json.items_rendered, Json.kind_rendered]
  cases hi : Backend.items v with
  | none => rfl
  | some items => exact h.eachItem hv hi 0

theorem readField {v : Value} (hv : Representable v) (name : String) :
    Codable.readField g (rendered v) name = Codable.readField f v name := by
  rw [Codable.readField, Codable.readField, Json.field_rendered]
  cases hfield : Backend.field v name with
  | error fault => rfl
  | ok found =>
      cases found with
      | none => rfl
      | some x => exact h x (hv.field hfield)

theorem entries : ReadAlike (Codable.readEntries f) (Codable.readEntries g) := by
  intro v hv
  rw [Codable.readEntries, Codable.readEntries, Json.kind_rendered, Json.fieldNames_rendered,
    funext (h.readField hv)]

theorem option : ReadAlike (fun v => if Backend.isNull v then .ok none else (f v).map some)
    fun j => if Backend.isNull j then .ok none else (g j).map some := by
  intro v hv
  dsimp only
  rw [Json.isNull_rendered, h v hv]

end ReadAlike

theorem readAlike_prim (p : Primitive) :
    ReadAlike (Codable.readPrim p : Value → _) (Codable.readPrim p) := by
  intro v hv
  rw [Codable.readPrim, Codable.readPrim, Json.isNull_rendered, Json.readLeaf_rendered hv]

theorem readAlike_codable {X : Type} {D : X → Type} {own : (x : X) → Value → Except Error (D x)}
    {own' : (x : X) → Json → Except Error (D x)} (h : ∀ x, ReadAlike (own x) (own' x))
    (t : Codable X) : ReadAlike (t.read own) (t.read own') := by
  induction t with
  | prim p => exact readAlike_prim p
  | value => exact fun _ hv => Json.toValue_rendered hv
  | list item ih => exact ih.items
  | option content ih => exact ih.option
  | boxed content ih => exact ih
  | sortedMap content ih => exact ih.entries.map _
  | dictionary content ih => exact ih.entries.map _
  | custom x => exact h x

/-- Two readers take the same nodes for nothing and read alike. -/
structure AlikeReaders (r : Reader Value α) (r' : Reader Json α) : Prop where
  absent : ∀ v, r'.absent (rendered v) = r.absent v
  read : ReadAlike r.read r'.read

namespace AlikeReaders

theorem prim (p : Primitive) : AlikeReaders (.prim p) (.prim p) where
  absent := Json.isNull_rendered
  read _ hv := congrArg (Except.mapError Error.root) (Json.readLeaf_rendered hv p)

theorem value : AlikeReaders .value .value where
  absent := Json.isNull_rendered
  read _ hv := Json.toValue_rendered hv

theorem record {f : Value → Except Error α} {g : Json → Except Error α} (h : ReadAlike f g) :
    AlikeReaders (.record f) (.record g) := ⟨Json.isNull_rendered, h⟩

variable {r : Reader Value α} {r' : Reader Json α} (h : AlikeReaders r r')

include h

theorem present : ReadAlike
    (fun v => if r.absent v then .error (.root .valueNotFound) else r.read v)
    fun j => if r'.absent j then .error (.root .valueNotFound) else r'.read j := by
  intro v hv
  dsimp only
  rw [h.absent, h.read v hv]

theorem list : AlikeReaders r.list r'.list where
  absent := Json.listAbsent_rendered
  read v hv := by
    rw [Reader.list_read, Reader.list_read, Reader.readItems, Reader.readItems, Json.items_rendered, Json.kind_rendered]
    cases hi : Backend.items v with
    | none => rfl
    | some items => exact h.present.eachItem hv hi 0

theorem option : AlikeReaders r.option r'.option where
  absent _ := rfl
  read v hv := by
    rw [Reader.option_read, Reader.option_read, h.absent, h.read v hv]

variable {κ : Type} [KeySpace κ] (keys : List κ)

theorem found (v : Value) :
    Mapper.optional r'.absent keys (rendered v) =
      (Mapper.optional r.absent keys v).map (Option.map rendered) := by
  rw [Mapper.optional, Mapper.optional, Tree.get_mapLeaves Json.kind?_counterpart]
  rcases Backend.get v (KeySpace.path keys) with e | _ | x
  · rfl
  · rfl
  · refine congrArg Except.ok ?_
    simp only [Option.map_some, Option.filter_some, h.absent]
    split <;> rfl

theorem require : ReadAlike (r.require keys) (r'.require keys) := by
  intro v hv
  rw [Reader.require, Reader.require, Mapper.required, Mapper.required, h.found keys v]
  cases hfound : Mapper.optional r.absent keys v with
  | error e => rfl
  | ok found =>
      cases found with
      | none => rfl
      | some x =>
          exact congrArg (Except.mapError _)
            (h.read x (hv.get (Mapper.optional_eq_some.1 hfound).1))

theorem optional : ReadAlike (r.optional keys) (r'.optional keys) := by
  intro v hv
  rw [Reader.optional, Reader.optional, h.found keys v]
  cases hfound : Mapper.optional r.absent keys v with
  | error e => rfl
  | ok found =>
      cases found with
      | none => rfl
      | some x =>
          exact congrArg (fun read => (Except.mapError _ read).map some)
            (h.read x (hv.get (Mapper.optional_eq_some.1 hfound).1))

end AlikeReaders

mutual

theorem alikeReaders_mapped : ∀ t : MappedType, AlikeReaders t.reader t.reader
  | .prim p => .prim p
  | .value => .value
  | .list item => (alikeReaders_mapped item).list
  | .option content => (alikeReaders_mapped content).option
  | .record fields => .record (readAlike_fields fields)

theorem readAlike_fields : ∀ fields : MappedFields, ReadAlike fields.read fields.read
  | .nil => fun _ _ => rfl
  | .cons path type rest => by
      intro v hv
      rw [MappedFields.read, MappedFields.read, (alikeReaders_mapped type).require path v hv,
        readAlike_fields rest v hv]
  | .optional path type rest => by
      intro v hv
      rw [MappedFields.read, MappedFields.read, (alikeReaders_mapped type).optional path v hv,
        readAlike_fields rest v hv]

end

end Readers

/-- Every type is read from a value as from the JSON tree that the value converts to: decoding at
the root and mapping at any path give the same value, or fail with the same error. -/
theorem typed_reads_alike {v : Value} (hd : v.Distinct) (hf : v.Every Scalar.IsFinite)
    {U : Type} (naming : Naming) (user : U) :
    ∃ j : Json, ofValue v = .ok j ∧
      (∀ t : Codable Empty, (t.ofTree (D := fun y => y.elim) (fun y => y.elim) naming user j).1 =
        (t.ofTree (fun y => y.elim) naming user v).1) ∧
      ∀ (t : MappedType) {κ : Type} [KeySpace κ] (keys : List κ),
        t.reader.require keys j = t.reader.require keys v ∧
        t.reader.optional keys j = t.reader.optional keys v := by
  have hv : Representable v := ⟨hd, hf⟩
  refine ⟨rendered v, hv.renders, fun t => ?_, fun t κ _ keys => ?_⟩
  · rw [Codable.ofTree_eq_read, Codable.ofTree_eq_read]
    exact readAlike_codable (fun y => y.elim) t v hv
  · exact ⟨(alikeReaders_mapped t).require keys v hv, (alikeReaders_mapped t).optional keys v hv⟩

/-- A double that is read as a whole number, in front of a number that does not fit its type, and
beside a field that is missing. -/
theorem typed_reads_alike_sizes :
    let sizes : List Value := [Value.double (.ofInt 3), Value.int 300]
    let v : Value := .object [("sizes", .array sizes), ("tags", .array [Value.null])]
    let map : Codable Empty := .dictionary (.list (.boxed (.option (.prim (.int .nat8)))))
    let record : MappedType := .record (.cons [.name "tags"] (.list (.option (.prim .string)))
      (.optional [.name "note"] (.prim .string)
        (.cons [.name "sizes", .index 0] (.prim (.int .nat8)) .nil)))
    ∃ j : Json, ofValue v = .ok j ∧
      (map.ofTree (D := fun y => y.elim) (fun y => y.elim) .identity () j).1 =
        .error ⟨.numberOutOfRange "300" "u8", [.name "sizes", .index 1]⟩ ∧
      record.reader.require ([] : List Key) j = .ok ([none], none, ⟨3, by decide⟩, ()) := by
  intro sizes v map record
  have hd : v.Distinct := by
    simp [v, sizes, Tree.Distinct, Tree.DistinctFields, Tree.DistinctItems, Fields.Distinct,
      Fields.names]
  have hf : v.Every Scalar.IsFinite :=
    ⟨⟨(by decide : (Binary.ofInt 3 : Double).isFinite = true), trivial, trivial⟩,
      ⟨trivial, trivial⟩, trivial⟩
  obtain ⟨j, hj, hcoded, hmapped⟩ := typed_reads_alike hd hf .identity ()
  exact ⟨j, hj, (hcoded map).trans rfl, ((hmapped record []).1).trans rfl⟩

end DataTree
