import DataTree.Decoder
import DataTree.Leaf

namespace DataTree.Decoding.Single

variable {S U α : Type} [Backend S]

def decodeNil : Decoding S U Bool := isNull

/-- Null is no primitive of any type. -/
def decodePrimitive (p : Primitive) : Decoding S U p.Carrier := do
  let node := (← get).current.node
  if Backend.isNull node then fail .valueNotFound
  else match readLeaf p node with
    | .ok x => return x
    | .error fault => fail fault

omit [Backend S] in
def decode (content : Decoding S U α) : Decoding S U α := do
  inside none (← get).current.node content

def decodeTree : Decoding S U Value := fun d =>
  match toValue d.current.node with
  | .ok v => .ok v d
  | .error e => .error (e.within d.path) d

end DataTree.Decoding.Single
