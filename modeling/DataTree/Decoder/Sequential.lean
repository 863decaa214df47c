import DataTree.Decoder

namespace DataTree.Decoding.Sequential

variable {S U α : Type} [Backend S]

def count : Decoding S U Nat := return (← get).current.count

omit [Backend S] in
def currentIndex : Decoding S U Nat := return (← get).current.cursor

@[simp] theorem run_count (d : Decoder S U) : count d = .ok d.current.count d := rfl

omit [Backend S] in
@[simp] theorem run_currentIndex (d : Decoder S U) :
    currentIndex d = .ok d.current.cursor d := rfl

def isAtEnd : Decoding S U Bool := return (← count) ≤ (← currentIndex)

def next : Decoding S U S := do
  let index ← currentIndex
  if ← isAtEnd then failAt [.index index] (.outOfBounds index (← count))
  else match Backend.item (← get).current.node index with
    | .ok (some node) => return node
    | .ok none => failAt [.index index] .valueNotFound
    | .error fault => failAt [.index index] fault

omit [Backend S] in
def advance : Decoding S U Unit := modify fun d =>
  { d with current := { d.current with cursor := d.current.cursor + 1 } }

def decode (item : Decoding S U α) : Decoding S U α := do
  let index ← currentIndex
  let node ← next
  let x ← inside (some (.index index)) node item
  advance
  return x

/-- An item that is null is passed over. -/
def decodeOptional (item : Decoding S U α) : Decoding S U (Option α) := do
  if Backend.isNull (← next) then
    advance
    return none
  else return some (← decode item)

/-- Passes over the next item if it is null, and says whether it was. -/
def decodeNil : Decoding S U Bool := do
  let absent := Backend.isNull (← next)
  if absent then advance
  return absent

def nestedKeyed (body : Decoding S U α) : Decoding S U α := decode (do keyed; body)

def nestedSequential (body : Decoding S U α) : Decoding S U α := decode (do sequential; body)

def take (item : Decoding S U α) : Nat → Decoding S U (List α)
  | 0 => return []
  | n + 1 => return (← decode item) :: (← take item n)

def rest (item : Decoding S U α) : Decoding S U (List α) := do
  take item ((← count) - (← currentIndex))

end DataTree.Decoding.Sequential
