import DataTree.Codable

namespace DataTree.Script

inductive Note
  | done
  | flag (b : Bool)
  | path (keys : Path)
  | naming (policy : Naming)
  | names (names : List String)
  | cursor (count index : Nat) (atEnd : Bool)
  | count (n : Nat)
  | delegate (name : String) (path : Path)
  /-- A decoded value, of which the parts of the user's own have nothing to show. -/
  | decoded (t : Codable Unit) (x : t.Carrier fun _ => Unit)

/-- The notes of the steps that were run so far, in the order in which they ended. -/
abbrev Log := List (Except Error Note)

def attempt {σ α : Type} (action : EStateM Error σ α) : EStateM Error σ (Except Error α) := fun s =>
  match action s with
  | .ok x s => .ok (.ok x) s
  | .error e s => .ok (.error e) s

/-- Goes on after a step, unless it failed and had not only been tried. -/
def proceed {σ : Type} (tried : Bool) (outcome : Except Error Note) (rest : EStateM Error σ Unit) :
    EStateM Error σ Unit :=
  match outcome with
  | .ok _ => rest
  | .error e => if tried then rest else throw e

end DataTree.Script
