import DataTree.Encoder
import DataTree.Leaf

namespace DataTree.Encoding.Single

variable {S U : Type} [Backend S]

omit [Backend S] in
def store (node : S) : Encoding S U Unit := fun e =>
  match e.current with
  | .single none => .ok () { e with current := .single (some node) }
  | .single (some _) => fail (.dataCorrupted "a single value container holds one value") e
  | _ => fail Container.single.closed e

def encodeNil : Encoding S U Unit := store Backend.null

def encodePrimitive (p : Primitive) (x : p.Carrier) : Encoding S U Unit := do
  match (writeLeaf p x : Except Fault S) with
  | .ok node => store node
  | .error fault => fail fault

def encode (content : Encoding S U Unit) : Encoding S U Unit := do
  let (_, node) ← inside none content
  store node

def encodeText (s : String) : Encoding S U Unit := store (Backend.string s)

def encodeTree (v : Value) : Encoding S U Unit := fun e =>
  match (ofValue v : Except Error S) with
  | .ok node => store node e
  | .error err => .error (err.within e.path) e

end DataTree.Encoding.Single
