import DataTree.Conversion
import DataTree.Primitive

namespace DataTree

variable {S : Type} [Backend S]

def readLeaf (p : Primitive) (node : S) : Except Fault p.Carrier := do
  p.ofScalar (← Backend.scalar node p.hint)

def writeLeaf (p : Primitive) (x : p.Carrier) : Except Fault S := do
  (ofValue (← p.toScalar x)).mapError (·.fault)

end DataTree
