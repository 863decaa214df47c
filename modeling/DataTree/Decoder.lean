import DataTree.Container
import DataTree.Conversion
import DataTree.Naming

namespace DataTree

namespace Decoder

/-- A node that is being decoded. The cursor is the index of the item that is read next, if the node
is read as a list. -/
structure Level (S : Type) where
  node : S
  claimed : Bool
  cursor : Nat

def Level.fresh {S : Type} (node : S) : Level S := ⟨node, false, 0⟩

def Level.count {S : Type} [Backend S] (level : Level S) : Nat :=
  (Backend.items level.node).elim 0 List.length

end Decoder

/-- The path leads from the root to the current level. Decoding hands the user state on and never
looks at it. -/
structure Decoder (S U : Type) where
  current : Decoder.Level S
  outer : List (Decoder.Level S)
  path : Path
  naming : Naming
  user : U

/-- What is done with a decoder. It can fail, and then still says what the decoder has become. -/
abbrev Decoding (S U : Type) := EStateM Error (Decoder S U)

variable {S U α : Type}

namespace Decoder

def start (node : S) (path : Path) (naming : Naming) (user : U) : Decoder S U :=
  ⟨.fresh node, [], path, naming, user⟩

def enter (key : Option Key) (node : S) (d : Decoder S U) : Decoder S U :=
  { d with current := .fresh node, outer := d.current :: d.outer, path := d.path ++ key.toList }

@[simp] theorem enter_path (key : Option Key) (node : S) (d : Decoder S U) :
    (d.enter key node).path = d.path ++ key.toList := rfl

/-- Back to the level around the current one, which was entered by a key or without. -/
def leave (key : Option Key) (d : Decoder S U) : Decoder S U :=
  match d.outer with
  | [] => d
  | level :: outer =>
    { d with current := level, outer, path := d.path.take (d.path.length - key.toList.length) }

end Decoder

namespace Decoding

def codingPath : Decoding S U Path := return (← get).path

def failAt (keys : Path) (fault : Fault) : Decoding S U α := fun d =>
  .error ⟨fault, d.path ++ keys⟩ d

def fail (fault : Fault) : Decoding S U α := failAt [] fault

/-- Runs a body on a level of its own. An error without a place is one of that level. -/
def inside (key : Option Key) (node : S) (body : Decoding S U α) : Decoding S U α := fun d =>
  match body (d.enter key node) with
  | .ok x d => .ok x (d.leave key)
  | .error e d => .error (e.orAt d.path) (d.leave key)

/-- Runs a body on another decoder, which shares no more than the user state. -/
def runOn (other : Decoder S U) (body : Decoding S U α) : Decoding S U α := fun d =>
  match body { other with user := d.user } with
  | .ok x other => .ok x { d with user := other.user }
  | .error e other => .error e { d with user := other.user }

def claim (c : Container) : Decoding S U Unit := fun d =>
  if d.current.claimed then fail c.refused d
  else .ok () { d with current := { d.current with claimed := true } }

variable [Backend S]

def isNull : Decoding S U Bool := return Backend.isNull (← get).current.node

/-- Asks for the current level as an object. A level of another shape is not used up. -/
def keyed : Decoding S U Unit := do
  match Backend.kind (← get).current.node with
  | .object => claim .keyed
  | .null => fail .valueNotFound
  | actual => fail (.incompatibleType "object" actual)

/-- Asks for the current level as a list; what has items is one. -/
def sequential : Decoding S U Unit := do
  let node := (← get).current.node
  match Backend.items node, Backend.kind node with
  | some _, _ => claim .sequential
  | none, .null => fail .valueNotFound
  | none, actual => fail (.incompatibleType "array" actual)

/-- Asks for the current level as one value, which every level is. -/
def single : Decoding S U Unit := claim .single

omit [Backend S] in
def run (naming : Naming) (user : U) (tree : S) (body : Decoding S U α) : Except Error α × U :=
  match body (.start tree [] naming user) with
  | .ok x d => (.ok x, d.user)
  | .error e d => (.error e, d.user)

end Decoding

end DataTree
