import DataTree.Xml.Escape
import DataTree.Xml.Node

namespace DataTree.Xml

structure WriteOptions where
  pretty : Bool
  indent : String

namespace WriteOptions

def compact : WriteOptions := ⟨false, "  "⟩

/-- A line break before each child and before the end tag behind children. -/
def line (options : WriteOptions) (depth : Nat) : String :=
  if options.pretty then "\n" ++ String.join (List.replicate depth options.indent) else ""

end WriteOptions

namespace Node

def attributeTexts (attributes : List (String × String)) : String :=
  String.join (attributes.map fun (name, value) =>
    " " ++ name ++ "=\"" ++ Escape.attributeValue.apply value ++ "\"")

def elementText (options : WriteOptions) (depth : Nat) (name : String)
    (attributes : List (String × String)) (children : List String) (content : String) : String :=
  let opening := "<" ++ name ++ attributeTexts attributes
  if children.isEmpty && content.isEmpty then opening ++ "/>"
  else
    opening ++ ">" ++ Escape.text.apply content ++
      String.join (children.map (options.line (depth + 1) ++ ·)) ++
      (if children.isEmpty then "" else options.line depth) ++ "</" ++ name ++ ">"

/-- The name under which a child is written: one that has not been placed is an item. -/
def writtenName (name : String) : String := if name = "" then itemName else name

mutual

def write (options : WriteOptions) (depth : Nat) : Node → String
  | .element name attributes children content =>
    elementText options depth (writtenName name) attributes
      (writeItems options (depth + 1) children) content
  | .text content => Escape.text.apply content
  | .list items => String.intercalate (options.line depth) (writeItems options depth items)

def writeItems (options : WriteOptions) (depth : Nat) : List Node → List String
  | [] => []
  | x :: xs => write options depth x :: writeItems options depth xs

end

/-- The document of a tree under a name for its root. A list has no root. -/
def toText (options : WriteOptions) (root : String) : Node → Except DataTree.Error String
  | .element _ attributes children content =>
    .ok (elementText options 0 root attributes (writeItems options 1 children) content)
  | .text content => .ok (elementText options 0 root [] [] content)
  | .list _ => .error (.root .cannotRepresentAsArray)

end Node

end DataTree.Xml
