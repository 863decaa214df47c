import DataTree.Backend
import DataTree.Decimal.Text
import DataTree.Text.Blank

namespace DataTree.Xml

inductive Node
  | element (name : String) (attributes : List (String × String)) (children : List Node)
      (text : String)
  | list (items : List Node)
  | text (content : String)

def itemName : String := "item"

namespace Node

instance : Inhabited Node := ⟨.text ""⟩

/-- An element without anything: null as well as an object without fields. -/
def empty : Node := .element "" [] [] ""

def isNamed (name : String) : Node → Bool
  | .element own _ _ _ => own == name
  | _ => false

mutual

def named (name : String) : Node → Node
  | .element _ attributes children content => .element name attributes children content
  | .text content => .element name [] [] content
  | .list items => .element name [] (namedItems items) ""

def namedItems : List Node → List Node
  | [] => []
  | x :: xs => named itemName x :: namedItems xs

end

/-- An element with children or attributes is an object, whatever its text. -/
def kind : Node → Kind
  | .element _ attributes children content =>
    if !children.isEmpty || !attributes.isEmpty then .object
    else if content ≠ "" then .scalar .string
    else .null
  | .list _ => .array
  | .text _ => .scalar .string

/-- The scalar that a text is when a kind is wanted. Text that is nothing of that kind stays text,
so that the reader sees what is there. -/
def parseScalar (text : String) (hint : ScalarKind) : Scalar :=
  let cs := Text.trimChars text.toList
  let trimmed := String.ofList cs
  let parsed : Option Scalar := match hint with
    | .bool =>
      if trimmed = "true" ∨ trimmed = "1" then some (.bool true)
      else if trimmed = "false" ∨ trimmed = "0" then some (.bool false)
      else none
    | .int =>
      match Text.signed64? cs with
      | some n => some (.int (Int64.ofInt n))
      | none => (Decimal.float? cs).map .double
    | .double => (Decimal.float? cs).map .double
    | .string => none
  parsed.getD (.string text)

/-- An element is a leaf if it has text and nothing else. -/
def scalar (node : Node) (hint : ScalarKind) : Except Fault Value :=
  match node with
  | .text content => .ok (.leaf (parseScalar content hint))
  | .element _ [] [] content =>
    if content ≠ "" then .ok (.leaf (parseScalar content hint))
    else .error (.typeMismatch hint.name node.kind)
  | other => .error (.typeMismatch hint.name other.kind)

/-- The children of one name, several of them as a list; without children the attribute. -/
def field (node : Node) (name : String) : Except Fault (Option Node) :=
  match node with
  | .element _ attributes children _ =>
    match children.filter (isNamed name) with
    | [] => .ok ((List.lookup name attributes).map .text)
    | [one] => .ok (some one)
    | several => .ok (some (.list several))
  | other => .error (.expectedObject other.kind)

def items? (node : Node) : Option (List Node) :=
  match node with
  | .list items => some items
  | .element _ _ children _ => if node.kind = .scalar .string then none else some children
  | .text _ => none

def item (node : Node) (index : Nat) : Except Fault (Option Node) :=
  match node.items? with
  | some items => .ok items[index]?
  | none => .error (.expectedArray node.kind)

/-- Known names followed by the new names of some nodes, each once. -/
def addNames (known : List String) : List Node → List String
  | [] => known
  | .element name _ _ _ :: rest =>
    addNames (if known.contains name then known else known ++ [name]) rest
  | _ :: rest => addNames known rest

def fieldNames : Node → List String
  | .element _ attributes children _ => addNames (Fields.names attributes) children
  | _ => []

def replaceNamed (name : String) (node : Node) : List Node → List Node
  | [] => []
  | x :: xs => if x.isNamed name then node :: xs else x :: replaceNamed name node xs

/-- Only a field that is one child can be written through. -/
def fieldSlot (node : Node) (name : String) : Except Fault (Option (Slot Node)) :=
  match node with
  | .element own attributes children content =>
    match children.filter (isNamed name) with
    | [] => .ok none
    | [one] =>
      .ok (some ⟨one, fun x => .element own attributes (replaceNamed name x children) content⟩)
    | _ => .error (.dataCorrupted ("<" ++ name ++ "> occurs more than once"))
  | other => .error (.expectedObject other.kind)

def itemSlot (node : Node) (index : Nat) : Except Fault (Option (Slot Node)) :=
  match node with
  | .list items => .ok (items[index]?.map fun x => ⟨x, fun y => .list (items.set index y)⟩)
  | .element own attributes children content =>
    if node.kind = .scalar .string then .error (.expectedArray node.kind)
    else .ok (children[index]?.map fun x =>
      ⟨x, fun y => .element own attributes (children.set index y) content⟩)
  | .text _ => .error (.expectedArray node.kind)

/-- Puts a child in the place of all children of its name, or behind the children. -/
def place (name : String) (child : Node) : List Node → List Node
  | [] => [child]
  | x :: xs =>
    if x.isNamed name then child :: xs.filter (!isNamed name ·) else x :: place name child xs

def insertField (name : String) (child : Node) : Edit Node Unit
  | .element own attributes children content =>
    .ok ()
      (.element own (Fields.erase name attributes) (place name (child.named name) children) content)
  | other => .error (.expectedObject other.kind) other

/-- Takes the children of a name out, and the attribute only where there are none. -/
def removeField (name : String) : Edit Node (Option Node)
  | .element own attributes children content =>
    let kept := children.filter (!isNamed name ·)
    match children.filter (isNamed name) with
    | [] =>
      .ok ((List.lookup name attributes).map .text)
        (.element own (Fields.erase name attributes) kept content)
    | [one] => .ok (some one) (.element own attributes kept content)
    | several => .ok (some (.list several)) (.element own attributes kept content)
  | other => .error (.expectedObject other.kind) other

def pushItem (child : Node) : Edit Node Unit := fun node =>
  match node with
  | .list items => .ok () (.list (items ++ [child]))
  | .element own attributes children content =>
    if node.kind = .scalar .string then .error (.expectedArray node.kind) node
    else .ok () (.element own attributes (children ++ [child.named itemName]) content)
  | .text _ => .error (.expectedArray node.kind) node

/-- A placed element keeps its name. -/
def assign (node value : Node) : Node :=
  match node with
  | .element name _ _ _ => if name = "" then value else value.named name
  | _ => value

mutual

/-- The list of some children stands below their element, so elements count twice. -/
def height : Node → Nat
  | .element _ _ children _ => heightOfItems children + 2
  | .list items => heightOfItems items + 1
  | .text _ => 0

def heightOfItems : List Node → Nat
  | [] => 0
  | x :: xs => max x.height (heightOfItems xs)

end

end Node

end DataTree.Xml
