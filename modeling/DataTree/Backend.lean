import DataTree.Fault

namespace DataTree

/-- A node found within another one, and the outer node as it is once the inner is replaced. -/
structure Slot (S : Type) where
  node : S
  refill : S → S

/-- A change of a node in place. Also when it fails, it says what the node has become. -/
abbrev Edit (S : Type) := EStateM Fault S

/-- A view that a node cannot offer is a type mismatch; a missing field or item is none. The hint
of `scalar` is the kind that the reader wants, for backends that store text. Fields and items lie
strictly below their node, which is what recursion over a backend descends on. -/
class Backend (S : Type) where
  null : S
  bool : Bool → S
  int : Int64 → S
  double : Double → Except Fault S
  string : String → S
  array : List S → S
  object : S
  kind : S → Kind
  scalar : S → ScalarKind → Except Fault Value
  field : S → String → Except Fault (Option S)
  item : S → Nat → Except Fault (Option S)
  items : S → Option (List S)
  fieldNames : S → List String
  fieldSlot : S → String → Except Fault (Option (Slot S))
  itemSlot : S → Nat → Except Fault (Option (Slot S))
  insertField : String → S → Edit S Unit
  removeField : String → Edit S (Option S)
  pushItem : S → Edit S Unit
  assign : S → S → S
  height : S → Nat
  field_lt : ∀ {node child : S} {name : String},
    field node name = .ok (some child) → height child < height node
  items_lt : ∀ {node child : S} {children : List S},
    items node = some children → child ∈ children → height child < height node

namespace Backend

variable {S : Type} [Backend S]

def isNull (node : S) : Bool := kind node == .null

/-- Moves the named fields of `source` into the node, overriding what is there. -/
def mergeFields : List String → S → Edit S Unit
  | [], _ => pure ()
  | name :: names, source => do
    match removeField name source with
    | .error fault _ => throw fault
    | .ok none source => mergeFields names source
    | .ok (some child) source =>
      insertField name child
      mergeFields names source

def mergeObject (source : S) : Edit S Unit := mergeFields (fieldNames source) source

def assignSlot (slot : Option (Slot S)) (value : S) : Option S :=
  slot.map fun slot => slot.refill (assign slot.node value)

end Backend

end DataTree
