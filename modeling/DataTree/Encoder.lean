import DataTree.Container
import DataTree.Conversion
import DataTree.Naming

namespace DataTree

namespace Encoder

/-- What a level has become so far. -/
inductive Draft (S : Type)
  | empty
  | keyed (object : S)
  | sequential (array : S) (count : Nat)
  | single (node : Option S)

/-- A level that nothing was written to has no node. -/
def Draft.node? {S : Type} : Draft S → Option S
  | .empty => none
  | .keyed object => some object
  | .sequential array _ => some array
  | .single node => node

/-- Inside another level, nothing is an empty object. -/
def Draft.node {S : Type} [Backend S] (draft : Draft S) : S := draft.node?.getD Backend.object

end Encoder

structure Encoder (S U : Type) where
  current : Encoder.Draft S
  outer : List (Encoder.Draft S)
  path : Path
  naming : Naming
  user : U

/-- What is done with an encoder. It can fail, and then still says what the encoder has become. -/
abbrev Encoding (S U : Type) := EStateM Error (Encoder S U)

variable {S U α : Type}

namespace Encoder

/-- An encoder for a place, with nothing written and nothing around it. -/
def start (path : Path) (naming : Naming) (user : U) : Encoder S U :=
  ⟨.empty, [], path, naming, user⟩

def enter (key : Option Key) (e : Encoder S U) : Encoder S U :=
  { e with current := .empty, outer := e.current :: e.outer, path := e.path ++ key.toList }

@[simp] theorem enter_outer (key : Option Key) (e : Encoder S U) :
    (e.enter key).outer = e.current :: e.outer := rfl

@[simp] theorem enter_path (key : Option Key) (e : Encoder S U) :
    (e.enter key).path = e.path ++ key.toList := rfl

@[simp] theorem enter_naming (key : Option Key) (e : Encoder S U) :
    (e.enter key).naming = e.naming := rfl

/-- Back to the level around the current one, which was entered by a key or without. -/
def leave (key : Option Key) (e : Encoder S U) : Encoder S U :=
  match e.outer with
  | [] => e
  | draft :: outer =>
    { e with current := draft, outer, path := e.path.take (e.path.length - key.toList.length) }

def result (e : Encoder S U) : Except Error S :=
  match e.current.node? with
  | some node => .ok node
  | none => .error ⟨.dataCorrupted "nothing was encoded", e.path⟩

end Encoder

namespace Encoding

def codingPath : Encoding S U Path := return (← get).path

def failAt (keys : Path) (fault : Fault) : Encoding S U α := fun e =>
  .error ⟨fault, e.path ++ keys⟩ e

def fail (fault : Fault) : Encoding S U α := failAt [] fault

def claim (c : Container) (draft : Encoder.Draft S) : Encoding S U Unit := fun e =>
  match e.current with
  | .empty => .ok () { e with current := draft }
  | _ => fail c.refused e

def single : Encoding S U Unit := claim .single (.single none)

variable [Backend S]

def keyed : Encoding S U Unit := claim .keyed (.keyed Backend.object)

def sequential : Encoding S U Unit := claim .sequential (.sequential (Backend.array []) 0)

/-- Runs a body on a level of its own, and gives what the level became. An error without a place is
one of that level. -/
def inside (key : Option Key) (body : Encoding S U α) : Encoding S U (α × S) := fun e =>
  match body (e.enter key) with
  | .ok x e => .ok (x, e.current.node) (e.leave key)
  | .error err e => .error (err.orAt e.path) (e.leave key)

omit [Backend S] in
def run (naming : Naming) (user : U) (body : Encoding S U Unit) : Except Error S × U :=
  match body (.start [] naming user) with
  | .ok () e => (e.result, e.user)
  | .error err e => (.error err, e.user)

end Encoding

end DataTree
