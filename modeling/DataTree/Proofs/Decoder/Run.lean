import DataTree.Proofs.Decoder.Request
import DataTree.Script.Note

namespace DataTree.Decoding

variable {S U α β : Type} [Backend S]

omit [Backend S] in
def aside (work : U → α × U) : Decoding S U α := fun d =>
  .ok (work d.user).1 { d with user := (work d.user).2 }

omit [Backend S] in
/-- Runs a body on another decoder and gives it back for later, also where the body failed. -/
def resume (other : Decoder S U) (body : Decoding S U α) :
    Decoding S U (Except Error α × Decoder S U) := fun d =>
  match body { other with user := d.user } with
  | .ok x other => .ok (.ok x, other) { d with user := other.user }
  | .error e other => .ok (.error e, other) { d with user := other.user }

/-- The operations that enter no level. -/
inductive Op (S U : Type) : Type → Type 1
  | codingPath : Op S U Path
  | naming : Op S U Naming
  | isNull : Op S U Bool
  | request (c : Container) : Op S U Unit
  | names : Op S U (List String)
  | contains (key : String) : Op S U Bool
  | fieldIsNull (key : String) : Op S U Bool
  | delegateFor (key : String) : Op S U (Decoder S U)
  | count : Op S U Nat
  | currentIndex : Op S U Nat
  | isAtEnd : Op S U Bool
  | passNull : Op S U Bool
  | primitive (p : Primitive) : Op S U p.Carrier
  | tree : Op S U Value
  | aside {α : Type} (work : U → α × U) : Op S U α

def Op.run : Op S U α → Decoding S U α
  | codingPath => Decoding.codingPath
  | naming => return (← get).naming
  | isNull => Decoding.isNull
  | request c => Decoding.request c
  | names => Keyed.names
  | contains key => Keyed.contains key
  | fieldIsNull key => Keyed.decodeNil key
  | delegateFor key => Keyed.delegateFor key
  | count => Sequential.count
  | currentIndex => Sequential.currentIndex
  | isAtEnd => Sequential.isAtEnd
  | passNull => Sequential.decodeNil
  | primitive p => Single.decodePrimitive p
  | tree => Single.decodeTree
  | aside work => Decoding.aside work

def nested (body : Decoding S U α) : Nested → Decoding S U α
  | .keyedField key => Keyed.nestedKeyed key body
  | .listField key => Keyed.nestedSequential key body
  | .keyedItem => Sequential.nestedKeyed body
  | .listItem => Sequential.nestedSequential body

/-- The operations that run a body on a level of its own: that of a field, of the next item, or of
the same node again, with or without a container opened for it, or on the delegate for a field. -/
inductive Entry
  | field (key : String)
  | fieldIfPresent (key : String)
  | named (name : String)
  | item
  | itemIfPresent
  | whole
  | nested (inner : Nested)
  | delegate (key : String)

namespace Entry

abbrev Result (α : Type) : Entry → Type
  | fieldIfPresent _ | itemIfPresent => Option α
  | _ => α

def run (body : Decoding S U α) : (entry : Entry) → Decoding S U (entry.Result α)
  | field key => Keyed.decode key body
  | fieldIfPresent key => Keyed.decodeOptional key body
  | named name => Keyed.decodeNamed name body
  | item => Sequential.decode body
  | itemIfPresent => Sequential.decodeOptional body
  | whole => Single.decode body
  | nested inner => Decoding.nested body inner
  | delegate key => do runOn (← Keyed.delegateFor key) body

def keys (d : Decoder S U) : Entry → Path
  | field key | fieldIfPresent key | delegate key => [.name (d.naming.apply key)]
  | named name => [.name name]
  | item | itemIfPresent => [.index d.current.cursor]
  | nested (.keyedField key) | nested (.listField key) => [.name (d.naming.apply key)]
  | nested .keyedItem | nested .listItem => [.index d.current.cursor]
  | whole => []

end Entry

/-- What is made of the operations, of errors raised and swallowed, and of delegates that are kept.
Bodies are runs themselves. -/
inductive Run : {α : Type} → Decoding S U α → Prop
  | pure {α : Type} (x : α) : Run (pure x)
  | bind {α β : Type} {first : Decoding S U α} {next : α → Decoding S U β} :
      Run first → (∀ x, Run (next x)) → Run (first >>= next)
  | throw {α : Type} (e : Error) : Run (throw e : Decoding S U α)
  | attempt {α : Type} {run : Decoding S U α} : Run run → Run (Script.attempt run)
  | op {α : Type} (op : Op S U α) : Run op.run
  | enter {α : Type} (entry : Entry) {body : Decoding S U α} : Run body → Run (entry.run body)
  | resume {α : Type} (other : Decoder S U) {body : Decoding S U α} :
      Run body → Run (Decoding.resume other body)

namespace Run

variable {body : Decoding S U α}

theorem map {run : Decoding S U α} (h : Run run) (f : α → β) :
    Run (do return f (← run) : Decoding S U β) := .bind h fun x => .pure (f x)

theorem runOn (h : Run body) (other : Decoder S U) : Run (Decoding.runOn other body) := by
  have hrun : Decoding.runOn other body =
      (do MonadExcept.ofExcept (← Decoding.resume other body).1) := by
    funext d
    rw [run_bind, Decoding.resume, Decoding.runOn]
    cases body { other with user := d.user } <;> rfl
  rw [hrun]
  refine .bind (.resume other h) fun result => ?_
  cases result.1 with
  | ok x => exact .pure x
  | error e => exact .throw e

theorem take (h : Run body) (n : Nat) : Run (Sequential.take body n) := by
  induction n with
  | zero => exact .pure []
  | succ n ih => exact .bind (.enter .item h) fun x => ih.map (x :: ·)

theorem entries (h : Run body) (names : List String) : Run (Keyed.entries body names) := by
  induction names with
  | nil => exact .pure []
  | cons name names ih => exact .bind (.enter (.named name) h) fun x => ih.map ((name, x) :: ·)

end Run

end DataTree.Decoding

namespace DataTree.Codable

open Decoding (Run)

variable {X S U : Type} {D : X → Type} [Backend S]

theorem run_decode {own : (x : X) → Decoding S U (D x)} (h : ∀ x, Run (own x)) (t : Codable X) :
    Run (t.decode own) := by
  induction t with
  | prim p => exact .bind (.op (.request .single)) fun _ => .op (.primitive p)
  | value => exact .bind (.op (.request .single)) fun _ => .op .tree
  | list item ih =>
      refine .bind (.op (.request .sequential)) fun _ => ?_
      exact .bind (.op .count) fun _ => .bind (.op .currentIndex) fun _ => ih.take _
  | option content ih =>
      refine .bind (.op .isNull) fun null => ?_
      cases null with
      | true => exact .pure none
      | false => exact ih.map some
  | boxed content ih => exact ih
  | sortedMap content ih =>
      refine .bind (.op (.request .keyed)) fun _ => ?_
      exact .bind (.op .names) fun names => (ih.entries names).map SortedMap.ofEntries
  | dictionary content ih =>
      refine .bind (.op (.request .keyed)) fun _ => ?_
      exact .bind (.op .names) fun names => (ih.entries names).map Dictionary.ofEntries
  | custom x => exact h x

end DataTree.Codable
