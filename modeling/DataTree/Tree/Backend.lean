import DataTree.Backend

namespace DataTree

/-- Leaves that hold the scalars, null among them. `scalar` gives the scalar of a leaf that is not
null, unless no value can hold it. -/
class Leaf (L : Type) where
  null : L
  bool : Bool → L
  int : Int64 → L
  double : Double → Except Fault L
  string : String → L
  kind? : L → Option ScalarKind
  scalar : L → Except Fault Scalar

instance : Leaf Scalar where
  null := .null
  bool := .bool
  int := .int
  double x := .ok (.double x)
  string := .string
  kind? := Scalar.kind?
  scalar := .ok

namespace Tree

variable {L : Type} [Leaf L]

def kind : Tree L → Kind
  | .leaf x => ((Leaf.kind? x).map Kind.scalar).getD .null
  | .array _ => .array
  | .object _ => .object

def scalar (t : Tree L) (hint : ScalarKind) : Except Fault Value :=
  match t with
  | .leaf x =>
    if (Leaf.kind? x).isSome then (Leaf.scalar x).map .leaf
    else .error (.typeMismatch hint.name t.kind)
  | _ => .error (.typeMismatch hint.name t.kind)

def field (t : Tree L) (name : String) : Except Fault (Option (Tree L)) :=
  match t with
  | .object fields => .ok (List.lookup name fields)
  | other => .error (.expectedObject other.kind)

def item (t : Tree L) (index : Nat) : Except Fault (Option (Tree L)) :=
  match t with
  | .array items => .ok items[index]?
  | other => .error (.expectedArray other.kind)

def items? : Tree L → Option (List (Tree L))
  | .array items => some items
  | _ => none

def fieldNames : Tree L → List String
  | .object fields => Fields.names fields
  | _ => []

def fieldSlot (t : Tree L) (name : String) : Except Fault (Option (Slot (Tree L))) :=
  match t with
  | .object fields =>
    .ok ((List.lookup name fields).map fun x => ⟨x, fun y => .object (Fields.put name y fields)⟩)
  | other => .error (.expectedObject other.kind)

def itemSlot (t : Tree L) (index : Nat) : Except Fault (Option (Slot (Tree L))) :=
  match t with
  | .array items => .ok (items[index]?.map fun x => ⟨x, fun y => .array (items.set index y)⟩)
  | other => .error (.expectedArray other.kind)

def insertField (name : String) (child : Tree L) : Edit (Tree L) Unit
  | .object fields => .ok () (.object (Fields.put name child fields))
  | other => .error (.expectedObject other.kind) other

def removeField (name : String) : Edit (Tree L) (Option (Tree L))
  | .object fields => .ok (List.lookup name fields) (.object (Fields.erase name fields))
  | other => .error (.expectedObject other.kind) other

def pushItem (child : Tree L) : Edit (Tree L) Unit
  | .array items => .ok () (.array (items ++ [child]))
  | other => .error (.expectedArray other.kind) other

theorem height_lt_of_field {t x : Tree L} {name : String} (h : t.field name = .ok (some x)) :
    x.height < t.height := by
  cases t with
  | object fields =>
      simp only [field, Except.ok.injEq] at h
      exact Nat.lt_succ_of_le (height_le_heightOfFields h)
  | _ => simp [field] at h

omit [Leaf L] in
theorem height_lt_of_items {t x : Tree L} {xs : List (Tree L)} (h : t.items? = some xs)
    (hx : x ∈ xs) : x.height < t.height := by
  cases t with
  | array items =>
      simp only [items?, Option.some.injEq] at h
      exact Nat.lt_succ_of_le (height_le_heightOfItems (h ▸ hx))
  | _ => simp [items?] at h

instance : Backend (Tree L) where
  null := .leaf Leaf.null
  bool b := .leaf (Leaf.bool b)
  int i := .leaf (Leaf.int i)
  double x := (Leaf.double x).map .leaf
  string s := .leaf (Leaf.string s)
  array := .array
  object := .object []
  kind := kind
  scalar := scalar
  field := field
  item := item
  items := items?
  fieldNames := fieldNames
  fieldSlot := fieldSlot
  itemSlot := itemSlot
  insertField := insertField
  removeField := removeField
  pushItem := pushItem
  assign _ value := value
  height := height
  field_lt := height_lt_of_field
  items_lt := height_lt_of_items

end Tree

end DataTree
