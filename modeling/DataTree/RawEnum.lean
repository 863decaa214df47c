import DataTree.Leaf

namespace DataTree

class RawEnum (α : Type) where
  primitive : Primitive
  cases : List α
  raw : α → primitive.Carrier

namespace RawEnum

variable {α S : Type} [RawEnum α] [Backend S]

/-- The first case whose raw value equals the given one. -/
def ofRaw? (x : (primitive α).Carrier) : Option α :=
  (cases (α := α)).find? fun c => (primitive α).equals x (raw c)

def read (node : S) : Except Fault α := do
  let x ← readLeaf (primitive α) node
  match ofRaw? x with
  | some c => .ok c
  | none => .error (.noCaseForRawValue (← (primitive α).toScalar x))

def write (c : α) : Except Fault S := writeLeaf (primitive α) (raw c)

end RawEnum

end DataTree
