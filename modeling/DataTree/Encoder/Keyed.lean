import DataTree.Encoder

namespace DataTree.Encoding.Keyed

variable {S U α : Type} [Backend S]

omit [Backend S] in
def storedName (key : String) : Encoding S U String := return (← get).naming.apply key

omit [Backend S] in
@[simp] theorem run_storedName (key : String) (e : Encoder S U) :
    storedName key e = .ok (e.naming.apply key) e := rfl

def insert (name : String) (node : S) : Encoding S U Unit := fun e =>
  match e.current with
  | .keyed object =>
    match Backend.insertField name node object with
    | .ok () object => .ok () { e with current := .keyed object }
    | .error fault object => failAt [.name name] fault { e with current := .keyed object }
  | _ => failAt [.name name] Container.keyed.closed e

def encodeNamed (name : String) (content : Encoding S U α) : Encoding S U α := do
  let (x, node) ← inside (some (.name name)) content
  insert name node
  return x

def encode (key : String) (content : Encoding S U α) : Encoding S U α := do
  encodeNamed (← storedName key) content

def encodeOptional (key : String) (content : Option (Encoding S U Unit)) : Encoding S U Unit :=
  match content with
  | some content => encode key content
  | none => pure ()

def encodeNil (key : String) : Encoding S U Unit := do
  insert (← storedName key) Backend.null

def encodeEntries : List (String × Encoding S U Unit) → Encoding S U Unit
  | [] => return
  | (name, content) :: entries => do
    encodeNamed name content
    encodeEntries entries

def nestedKeyed (key : String) (body : Encoding S U α) : Encoding S U α :=
  encode key (do keyed; body)

def nestedSequential (key : String) (body : Encoding S U α) : Encoding S U α :=
  encode key (do sequential; body)

/-- An encoder of its own for the field of a name. Nothing reaches the object before the delegate is
finished. -/
structure Delegate (S U : Type) where
  name : String
  encoder : Encoder S U

omit [Backend S] in
def delegateFor (key : String) : Encoding S U (Delegate S U) := do
  let name ← storedName key
  let e ← get
  return ⟨name, .start (e.path ++ [.name name]) e.naming e.user⟩

omit [Backend S] in
/-- The delegate for what an object shares with the one it extends. -/
def delegate : Encoding S U (Delegate S U) := delegateFor "super"

omit [Backend S] in
/-- Runs a body on a delegate, which shares no more than the user state. The delegate keeps what was
written also where the body failed. -/
def runOn (other : Delegate S U) (body : Encoding S U α) :
    Encoding S U (Except Error α × Delegate S U) := fun e =>
  match body { other.encoder with user := e.user } with
  | .ok x encoder => .ok (.ok x, { other with encoder }) { e with user := encoder.user }
  | .error err encoder => .ok (.error err, { other with encoder }) { e with user := encoder.user }

/-- Writes what a delegate became; one that wrote nothing is an empty object. -/
def finish (other : Delegate S U) : Encoding S U Unit :=
  insert other.name other.encoder.current.node

end DataTree.Encoding.Keyed
