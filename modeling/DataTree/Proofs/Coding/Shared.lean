import DataTree.Json
import DataTree.Proofs.Coding.Decoded
import DataTree.Proofs.Coding.Encoded
import DataTree.Proofs.Mapping.Failure

namespace DataTree

/-- The fault that coding reports where mapping reports the given one. -/
def Fault.coded : Fault → Fault
  | .typeMismatch expected got =>
    if expected = "array" then .incompatibleType expected got else .typeMismatch expected got
  | fault => fault

def Error.coded (e : Error) : Error := ⟨e.fault.coded, e.path⟩

/-- What coding makes of an outcome of mapping, with the values of the type under its other name. -/
def recoded {α β : Type} (h : α = β) (outcome : Except Error α) : Except Error β :=
  (outcome.mapError Error.coded).map (cast h)

/-- The codes of the types that both know. -/
inductive SharedType
  | prim (p : Primitive)
  | value
  | list (item : SharedType)
  | option (content : SharedType)

namespace SharedType

def mapped : SharedType → MappedType
  | prim p => .prim p
  | value => .value
  | list item => .list item.mapped
  | option content => .option content.mapped

def codable : SharedType → Codable Empty
  | prim p => .prim p
  | value => .value
  | list item => .list item.codable
  | option content => .option content.codable

theorem carrier_eq (t : SharedType) : t.mapped.Carrier = t.codable.Carrier fun y => y.elim := by
  induction t with
  | list item ih => exact congrArg List ih
  | option content ih => exact congrArg Option ih
  | _ => rfl

end SharedType

section Writing

variable {S α β : Type} [Backend S]

theorem Writer.list_cast {w : Writer S α} {f : β → Except Error S} (h : α = β)
    (hf : ∀ x, f (cast h x) = w.write x) (xs : List α) :
    (eachItem f 0 (cast (congrArg List h) xs)).map Backend.array = w.list.write xs := by
  subst h
  obtain rfl : f = w.write := funext hf
  rfl

theorem Writer.option_cast {w : Writer S α} {f : β → Except Error S} (h : α = β)
    (hf : ∀ x, f (cast h x) = w.write x) (x : Option α) :
    (cast (congrArg Option h) x).elim (.ok Backend.null) f = w.option.write x := by
  subst h
  obtain rfl : f = w.write := funext hf
  cases x <;> rfl

theorem SharedType.render_codable (t : SharedType) (x : t.mapped.Carrier) :
    t.codable.render (fun y => y.elim) (cast t.carrier_eq x) =
      (t.mapped.writer.write x : Except Error S) := by
  induction t with
  | prim p => rfl
  | value => rfl
  | list item ih => exact Writer.list_cast item.carrier_eq ih x
  | option content ih =>
      have hrender (y : Option (content.codable.Carrier fun y => y.elim)) :
          (option content).codable.render (fun y => y.elim) y =
            y.elim (.ok (Backend.null : S)) (content.codable.render fun y => y.elim) := by
        cases y <;> rfl
      exact (hrender _).trans (Writer.option_cast content.carrier_eq ih x)

end Writing

section Faults

theorem Fault.coded_typeMismatch {expected : String} (h : expected ≠ "array") (got : Kind) :
    (Fault.typeMismatch expected got).coded = .typeMismatch expected got := if_neg h

theorem ScalarKind.name_ne_array (kind : ScalarKind) : kind.name ≠ "array" := by
  cases kind <;> decide

theorem Primitive.name_ne_array (p : Primitive) : p.name ≠ "array" := by
  cases p with
  | int t => cases t <;> decide
  | _ => decide

theorem Primitive.fault_of_ofScalar {p : Primitive} {v : Value} {fault : Fault}
    (h : p.ofScalar v = .error fault) :
    fault = p.mismatch v ∨ ∃ text, fault = .numberOutOfRange text p.name := by
  cases p with
  | int t =>
      simp only [ofScalar, intOfScalar] at h
      grind [Primitive.mismatch, Primitive.name]
  | double =>
      simp only [ofScalar, doubleOfScalar] at h
      grind [Primitive.mismatch, Primitive.name]
  | single =>
      simp only [ofScalar, singleOfScalar] at h
      grind [Primitive.mismatch, Primitive.name]
  | char =>
      simp only [ofScalar, charOfScalar] at h
      grind [Primitive.mismatch, Primitive.name]
  | bool => rcases v with (_ | _ | _ | _ | _) | _ | _ <;> cases h <;> exact .inl rfl
  | string => rcases v with (_ | _ | _ | _ | _) | _ | _ <;> cases h <;> exact .inl rfl

theorem Primitive.coded_of_ofScalar {p : Primitive} {v : Value} {fault : Fault}
    (h : p.ofScalar v = .error fault) : fault.coded = fault := by
  rcases fault_of_ofScalar h with rfl | ⟨text, rfl⟩
  · exact Fault.coded_typeMismatch p.name_ne_array _
  · rfl

/-- Coding reports whatever keeps a leaf from giving its scalar as mapping does. -/
def Leaf.FaultsKept (L : Type) [Leaf L] : Prop :=
  ∀ {x : L} {fault : Fault}, Leaf.scalar x = .error fault → fault.coded = fault

theorem faultsKept_scalar : Leaf.FaultsKept Scalar := nofun

theorem Json.faultsKept_scalar : Leaf.FaultsKept Json.Scalar := by
  intro x fault h
  cases x with
  | number n =>
      change Scalar.toScalar _ = _ at h
      cases n with
      | integer n range =>
          rw [Scalar.toScalar] at h
          split at h <;> cases h
          rfl
      | real x finite => cases h
  | _ => cases h

variable {L : Type} [Leaf L]

theorem Tree.fault_of_scalar {tree : Tree L} {hint : ScalarKind} {fault : Fault}
    (h : Backend.scalar tree hint = .error fault) :
    fault = .typeMismatch hint.name tree.kind ∨ ∃ x : L, Leaf.scalar x = .error fault := by
  change Tree.scalar tree hint = _ at h
  cases tree with
  | leaf x =>
      rw [Tree.scalar] at h
      split at h
      next =>
        cases hx : Leaf.scalar x with
        | ok s =>
            rw [hx] at h
            cases h
        | error fault' =>
            rw [hx] at h
            cases h
            exact .inr ⟨x, hx⟩
      next =>
        cases h
        exact .inl rfl
  | _ =>
      cases h
      exact .inl rfl

theorem coded_of_readLeaf (hL : Leaf.FaultsKept L) {p : Primitive} {tree : Tree L} {fault : Fault}
    (h : readLeaf p tree = .error fault) : fault.coded = fault := by
  rw [readLeaf] at h
  cases hscalar : Backend.scalar tree p.hint with
  | ok v =>
      rw [hscalar] at h
      exact Primitive.coded_of_ofScalar h
  | error fault' =>
      rw [hscalar] at h
      cases h
      -- the kind that was wanted is one of a scalar, so that coding has no name of its own for it
      rcases Tree.fault_of_scalar hscalar with rfl | ⟨x, hx⟩
      · exact Fault.coded_typeMismatch (ScalarKind.name_ne_array _) _
      · exact hL hx

end Faults

section Reading

variable {L α β : Type} [Leaf L]

theorem Tree.listAbsent_eq (tree : Tree L) : Reader.listAbsent tree = Backend.isNull tree := by
  cases tree with
  | leaf x => exact Bool.and_true _
  | _ => rfl

theorem eachItem_recoded {γ : Type} (h : α = β) (f : γ → Except Error α) (index : Nat)
    (xs : List γ) : eachItem (fun x => recoded h (f x)) index xs =
      recoded (congrArg List h) (eachItem f index xs) := by
  subst h
  induction xs generalizing index with
  | nil => rfl
  | cons x xs ih =>
      rw [eachItem, eachItem, ih]
      cases f x with
      | error e => rfl
      | ok y => cases eachItem f (index + 1) xs <;> rfl

theorem readPrim_eq_recoded (hL : Leaf.FaultsKept L) (p : Primitive) (tree : Tree L) :
    Codable.readPrim p tree = recoded rfl ((Reader.prim p).require ([] : List Key) tree) := by
  rw [Codable.readPrim, Reader.require_nil, Reader.prim_absent, Reader.prim_read]
  split
  next => rfl
  next =>
    cases hleaf : readLeaf p tree with
    | ok x => rfl
    | error fault =>
        show Except.error (Error.root fault) = .error (Error.root fault.coded)
        rw [coded_of_readLeaf hL hleaf]

variable {r : Reader (Tree L) α} {f : Tree L → Except Error β} (h : α = β)
  (hf : ∀ tree, f tree = recoded h (r.require ([] : List Key) tree))

include hf

theorem readItems_eq_recoded (tree : Tree L) :
    Codable.readItems f tree =
      recoded (congrArg List h) (r.list.require ([] : List Key) tree) := by
  have hitem : f = fun x => recoded h (if r.absent x then .error (.root .valueNotFound)
      else r.read x) := funext fun x => (hf x).trans (by rw [Reader.require_nil])
  rw [Codable.readItems, Reader.require_nil, Reader.list_absent, Reader.list_read,
    tree.listAbsent_eq, Reader.readItems, Backend.isNull]
  cases tree with
  | array items =>
      rw [hitem]
      exact eachItem_recoded h _ 0 items
  | object fields => rfl
  | leaf x =>
      -- null is no value for either; of any other scalar the two say different things
      show Except.error (Error.root (Fault.refusal "array" (Backend.kind (Tree.leaf x)))) =
        recoded _ (if Backend.kind (Tree.leaf x) == .null then _
          else .error (.root (.expectedArray (Backend.kind (Tree.leaf x)))))
      cases Backend.kind (Tree.leaf x) <;> rfl

theorem readOption_eq_recoded (hr : ∀ tree, r.absent tree = Backend.isNull tree) (tree : Tree L) :
    (if Backend.isNull tree then .ok none else (f tree).map some) =
      recoded (congrArg Option h) (r.option.require ([] : List Key) tree) := by
  subst h
  rw [Reader.require_nil, hf, Reader.require_nil, Reader.option_absent, Reader.option_read,
    if_neg Bool.false_ne_true, hr]
  split
  next => rfl
  next => cases r.read tree <;> rfl

end Reading

namespace SharedType

theorem absent_eq_isNull {L : Type} [Leaf L] {t : SharedType} (ht : t.mapped.isOption = false)
    (tree : Tree L) : t.mapped.reader.absent tree = Backend.isNull tree := by
  cases t with
  | list item => exact tree.listAbsent_eq
  | option content => cases ht
  | _ => rfl

theorem read_codable {L : Type} [Leaf L] (hL : Leaf.FaultsKept L) {t : SharedType}
    (ht : t.mapped.Regular) (tree : Tree L) : t.codable.read (fun y => y.elim) tree =
      recoded t.carrier_eq (t.mapped.reader.require ([] : List Key) tree) := by
  induction t generalizing tree with
  | prim p => exact readPrim_eq_recoded hL p tree
  | value => cases ht
  | list item ih => exact readItems_eq_recoded item.carrier_eq (ih ht) tree
  | option content ih =>
      exact readOption_eq_recoded content.carrier_eq (ih ht.2) (absent_eq_isNull ht.1) tree

/-- A type of primitives, lists and options, without an option directly around another one, is coded
as it is mapped: to the same node, or with the same error, and from every tree to the same value, or
with the error that coding reports for that of mapping, at the same path. -/
theorem coded_as_mapped {t : SharedType} (ht : t.mapped.Regular) {U : Type} (naming : Naming)
    (user : U) :
    (∀ x : t.mapped.Carrier,
      (t.codable.toTree (fun y => y.elim) naming user (cast t.carrier_eq x)).1 =
        (t.mapped.writer.write x : Except Error Value) ∧
      (t.codable.toTree (fun y => y.elim) naming user (cast t.carrier_eq x)).1 =
        (t.mapped.writer.write x : Except Error Json)) ∧
    (∀ tree : Value, (t.codable.ofTree (fun y => y.elim) naming user tree).1 =
      recoded t.carrier_eq (t.mapped.reader.require ([] : List Key) tree)) ∧
    ∀ tree : Json, (t.codable.ofTree (fun y => y.elim) naming user tree).1 =
      recoded t.carrier_eq (t.mapped.reader.require ([] : List Key) tree) := by
  have hwrite {S : Type} [Backend S] [LawfulBackend S] (own : (y : Empty) → _ → Encoding S U Unit)
      (x : t.mapped.Carrier) :
      (t.codable.toTree own naming user (cast t.carrier_eq x)).1 = t.mapped.writer.write x := by
    rw [Codable.toTree_eq_render, render_codable]
  have hread {L : Type} [Leaf L] (hL : Leaf.FaultsKept L)
      (own : (y : Empty) → Decoding (Tree L) U _) (tree : Tree L) :
      (t.codable.ofTree own naming user tree).1 =
        recoded t.carrier_eq (t.mapped.reader.require ([] : List Key) tree) := by
    rw [Codable.ofTree_eq_read, read_codable hL ht]
  exact ⟨fun x => ⟨hwrite _ x, hwrite _ x⟩, hread faultsKept_scalar _,
    hread Json.faultsKept_scalar _⟩

/-- A number that does not fit behind a null, and a bool in the place of a list behind both. -/
theorem coded_as_mapped_misfits :
    let t : SharedType := .list (.option (.list (.prim (.int .nat8))))
    let front : List Value := [Value.null, .array [Value.int 1]]
    let misfit : Value := .array (front ++ [Value.bool true])
    let large : Value := .array (front ++ [.array [Value.int 300]])
    t.mapped.Regular ∧
      t.mapped.reader.require ([] : List Key) misfit =
        .error ⟨.typeMismatch "array" (.scalar .bool), [.index 2]⟩ ∧
      (t.codable.ofTree (D := fun y => y.elim) (fun y => y.elim) .snake () misfit).1 =
        .error ⟨.incompatibleType "array" (.scalar .bool), [.index 2]⟩ ∧
      (t.codable.ofTree (D := fun y => y.elim) (fun y => y.elim) .snake () large).1 =
        .error ⟨.numberOutOfRange "300" "u8", [.index 2, .index 0]⟩ := by
  intro t front misfit large
  have ht : t.mapped.Regular := ⟨rfl, trivial⟩
  obtain ⟨-, hread, -⟩ := coded_as_mapped ht .snake ()
  exact ⟨ht, rfl, (hread misfit).trans rfl, (hread large).trans rfl⟩

end SharedType

end DataTree
