import DataTree.Backend

namespace DataTree

open Backend

section Collecting

variable {α β : Type}

/-- Handles the items in order; a failure carries the index of its item. -/
def eachItem (f : α → Except Error β) (index : Nat) : List α → Except Error (List β)
  | [] => .ok []
  | x :: xs => do
    let y ← (f x).mapError (Error.within [.index index])
    let ys ← eachItem f (index + 1) xs
    return y :: ys

/-- Handles the fields by name in order; a failure carries the name of its field. -/
def eachField (f : String → Except Error (Option β)) :
    List String → Except Error (List (String × β))
  | [] => .ok []
  | name :: names => do
    let y ← (f name).mapError (Error.within [.name name])
    let ys ← eachField f names
    return match y with
      | some y => (name, y) :: ys
      | none => ys

end Collecting

variable {S : Type} [Backend S]

def ofScalar : Scalar → Except Fault S
  | .null => .ok null
  | .bool b => .ok (bool b)
  | .int i => .ok (int i)
  | .double x => double x
  | .string s => .ok (string s)

mutual

def ofValue : Value → Except Error S
  | .leaf x => (ofScalar x).mapError Error.root
  | .array items => (ofItems 0 items).map array
  | .object fields => ofFields fields object

def ofItems (index : Nat) : List Value → Except Error (List S)
  | [] => .ok []
  | x :: xs => do
    let y ← (ofValue x).mapError (Error.within [.index index])
    let ys ← ofItems (index + 1) xs
    return y :: ys

def ofFields : List (String × Value) → S → Except Error S
  | [], node => .ok node
  | (name, x) :: rest, node => do
    let y ← (ofValue x).mapError (Error.within [.name name])
    match insertField name y node with
    | .ok () node => ofFields rest node
    | .error fault _ => .error ⟨fault, [.name name]⟩

end

def toValue (node : S) : Except Error Value :=
  match kind node with
  | .null => .ok Value.null
  | .scalar hint => (scalar node hint).mapError Error.root
  | .array =>
    match _h : items node with
    | none => .error (.root (.expectedArray .array))
    | some children =>
      (eachItem (fun (child : { x // x ∈ children }) => toValue child.1) 0 children.attach).map
        Tree.array
  | .object =>
    (eachField (fun name =>
      match _h : field node name with
      | .error fault => .error (.root fault)
      | .ok none => .ok none
      | .ok (some child) => (toValue child).map some) (fieldNames node)).map Tree.object
termination_by height node
decreasing_by
  · exact items_lt _h child.2
  · exact field_lt _h

end DataTree
