import DataTree.Decoder

namespace DataTree.Decoding.Keyed

variable {S U α : Type} [Backend S]

def names : Decoding S U (List String) := return Backend.fieldNames (← get).current.node

omit [Backend S] in
def storedName (key : String) : Decoding S U String := return (← get).naming.apply key

omit [Backend S] in
@[simp] theorem run_storedName (key : String) (d : Decoder S U) :
    storedName key d = .ok (d.naming.apply key) d := rfl

def find (name : String) : Decoding S U (Option S) := do
  match Backend.field (← get).current.node name with
  | .ok found => return found
  | .error fault => failAt [.name name] fault

def require (name : String) : Decoding S U S := do
  match ← find name with
  | some node => return node
  | none => failAt [.name name] (.keyNotFound name)

def contains (key : String) : Decoding S U Bool := do
  let d ← get
  match Backend.field d.current.node (d.naming.apply key) with
  | .ok (some _) => return true
  | _ => return false

def decodeNamed (name : String) (content : Decoding S U α) : Decoding S U α := do
  let node ← require name
  inside (some (.name name)) node content

def decode (key : String) (content : Decoding S U α) : Decoding S U α := do
  decodeNamed (← storedName key) content

/-- Nothing is decoded of a field that is missing or null. -/
def decodeOptional (key : String) (content : Decoding S U α) : Decoding S U (Option α) := do
  let name ← storedName key
  match ← find name with
  | none => return none
  | some node =>
    if Backend.isNull node then return none
    else return some (← inside (some (.name name)) node content)

def decodeNil (key : String) : Decoding S U Bool :=
  return Backend.isNull (← require (← storedName key))

def entries (content : Decoding S U α) : List String → Decoding S U (List (String × α))
  | [] => return []
  | name :: names => return (name, ← decodeNamed name content) :: (← entries content names)

def nestedKeyed (key : String) (body : Decoding S U α) : Decoding S U α :=
  decode key (do keyed; body)

def nestedSequential (key : String) (body : Decoding S U α) : Decoding S U α :=
  decode key (do sequential; body)

/-- A decoder of its own for a field; a missing field is null to it. -/
def delegateFor (key : String) : Decoding S U (Decoder S U) := do
  let name ← storedName key
  let found ← find name
  let d ← get
  return .start (found.getD Backend.null) (d.path ++ [.name name]) d.naming d.user

/-- The delegate for what an object shares with the one it extends. -/
def delegate : Decoding S U (Decoder S U) := delegateFor "super"

end DataTree.Decoding.Keyed
