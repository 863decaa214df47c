import DataTree.Encoder

namespace DataTree.Encoding.Sequential

variable {S U α : Type} [Backend S]

omit [Backend S] in
/-- The number of items written so far, which is the index of the next one. -/
def count : Encoding S U Nat := do
  match (← get).current with
  | .sequential _ n => return n
  | _ => return 0

def push (index : Nat) (node : S) : Encoding S U Unit := fun e =>
  match e.current with
  | .sequential array n =>
    match Backend.pushItem node array with
    | .ok () array => .ok () { e with current := .sequential array (n + 1) }
    | .error fault array => failAt [.index index] fault { e with current := .sequential array n }
  | _ => failAt [.index index] Container.sequential.closed e

def encode (item : Encoding S U α) : Encoding S U α := do
  let index ← count
  let (x, node) ← inside (some (.index index)) item
  push index node
  return x

def encodeAll : List (Encoding S U Unit) → Encoding S U Unit
  | [] => return
  | item :: items => do
    encode item
    encodeAll items

def encodeNil : Encoding S U Unit := do push (← count) Backend.null

def nestedKeyed (body : Encoding S U α) : Encoding S U α := encode (do keyed; body)

def nestedSequential (body : Encoding S U α) : Encoding S U α := encode (do sequential; body)

end DataTree.Encoding.Sequential
