import DataTree.Tree.Backend

namespace DataTree

def Slot.edit {S : Type} (slot : Slot S) (key : Key) (change : EStateM Error S Unit) :
    EStateM.Result Error S Unit :=
  match change slot.node with
  | .ok () node => .ok () (slot.refill node)
  | .error e node => .error (e.within [key]) (slot.refill node)

namespace Backend

variable {S : Type} [Backend S]

def child (node : S) : Key → Except Fault (Option S)
  | .name name => field node name
  | .index index => item node index

def get (node : S) : Path → Except Error (Option S)
  | [] => .ok (some node)
  | key :: rest =>
    match child node key with
    | .error fault => .error ⟨fault, [key]⟩
    | .ok none => .ok none
    | .ok (some next) => (get next rest).mapError (Error.within [key])

def emptyFor : Key → S
  | .index _ => array []
  | .name _ => object

/-- Stores a value at a path. Missing fields are created, with the containers that the keys after
them ask for; arrays never grow. With `merge`, an object written over an object adds its fields to
it. -/
def setAt (value : S) (merge : Bool) : Path → EStateM Error S Unit
  | [], node =>
    if merge && kind node == .object && kind value == .object then
      match mergeObject value node with
      | .ok () node => .ok () node
      | .error fault node => .error (.root fault) node
    else .ok () (assign node value)
  | .index index :: rest, node =>
    match itemSlot node index with
    | .error fault => .error ⟨fault, [.index index]⟩ node
    | .ok none =>
      .error ⟨.outOfBounds index ((items node).elim 0 List.length), [.index index]⟩ node
    | .ok (some slot) => slot.edit (.index index) (setAt value merge rest)
  | .name name :: rest, node =>
    match fieldSlot node name with
    | .error fault => .error ⟨fault, [.name name]⟩ node
    | .ok (some slot) => slot.edit (.name name) (setAt value merge rest)
    | .ok none =>
      let branch : EStateM.Result Error S Unit := match rest with
        | [] => .ok () value
        | next :: _ => setAt value merge rest (emptyFor next)
      match branch with
      | .error e _ => .error (e.within [.name name]) node
      | .ok () branch =>
        match insertField name branch node with
        | .ok () node => .ok () node
        | .error fault node => .error ⟨fault, [.name name]⟩ node

def set (tree : S) (path : Path) (value : S) (merge : Bool) : Except Error S :=
  match setAt value merge path tree with
  | .ok () tree => .ok tree
  | .error e _ => .error e

/-- The tree without the field at a path. Every step leads through an existing field of an object;
a last field that is missing is no error. The empty path removes all and leaves null. -/
def remove : Path → S → Except Error S
  | [], _ => .ok null
  | [.name name], node =>
    match removeField name node with
    | .ok _ node => .ok node
    | .error fault _ => .error ⟨fault, [.name name]⟩
  | [.index index], node => .error ⟨.expectedObject (kind node), [.index index]⟩
  | key :: rest, node =>
    match key, kind node with
    | .name name, .object =>
      match fieldSlot node name with
      | .error fault => .error ⟨fault, [key]⟩
      | .ok none => .error ⟨.keyNotFound name, [key]⟩
      | .ok (some slot) =>
        match remove rest slot.node with
        | .ok node => .ok (slot.refill node)
        | .error e => .error (e.within [key])
    | _, got => .error ⟨.expectedObject got, [key]⟩

end Backend

namespace Value

def walk (walked : Path) : Value → Path → Except Error (Option Value)
  | v, [] => .ok (some v)
  | .object fields, .name name :: rest =>
    match List.lookup name fields with
    | some next => walk (walked ++ [.name name]) next rest
    | none => .ok none
  | .array items, .index index :: rest =>
    match items[index]? with
    | some next => walk (walked ++ [.index index]) next rest
    | none => .ok none
  | v, .name name :: _ => .error ⟨.expectedObject (Backend.kind v), walked ++ [.name name]⟩
  | v, .index index :: _ => .error ⟨.expectedArray (Backend.kind v), walked ++ [.index index]⟩

/-- The node at a path of the library's own tree, found without the backend. -/
def lookup (v : Value) (path : Path) : Except Error (Option Value) := walk [] v path

end Value

end DataTree
