import DataTree.Xml.Attribute
import DataTree.Xml.Event
import DataTree.Xml.Node

namespace DataTree.Xml

structure Opened where
  name : String
  attributes : List (String × String)
  children : List Node
  text : String

namespace Opened

def toNode (e : Opened) : Node := .element e.name e.attributes e.children e.text

def close (e : Opened) : Node := toNode { e with text := Text.trim e.text }

def ofTag (tag : Symbols) : Except Error Opened := do
  let name := Event.tagName tag
  let localName ← (Attribute.localName name).decode.mapError .invalidUtf8
  let attributes ← Attribute.collect
    (Attribute.scan tag.width [] (tag.drop name.length)) []
  return ⟨localName, attributes, [], ""⟩

end Opened

/-- The open elements, innermost first, and the root element once it is closed. -/
structure Document where
  opened : List Opened
  root : Option Node

namespace Document

def start : Document := ⟨[], none⟩

def attach (d : Document) (node : Node) : Except Error Document :=
  match d.opened, d.root with
  | parent :: outer, root =>
    .ok ⟨{ parent with children := parent.children ++ [node] } :: outer, root⟩
  | [], none => .ok ⟨[], some node⟩
  | [], some _ => .error .multipleRoots

/-- Adds to the text of the innermost element; without one the text is not even looked at. -/
def addText (d : Document) (text : Except Error String) : Except Error Document :=
  match d.opened with
  | [] => .ok d
  | parent :: outer => text.map fun s => ⟨{ parent with text := parent.text ++ s } :: outer, d.root⟩

def decoded (content : Symbols) : Except Error String :=
  content.decode.mapError fun fault => .parse (.undecodable fault)

def resolved (name : Symbols) : Except Error String := do
  let raw ← decoded name
  let cs ← (Reference.resolve raw.toList).mapError .parse
  return String.ofList cs

def step (d : Document) : Event → Except Error Document
  | .start tag => do return ⟨(← Opened.ofTag tag) :: d.opened, d.root⟩
  | .empty tag => do d.attach (← Opened.ofTag tag).toNode
  | .stop =>
    match d.opened with
    | [] => .error .unbalancedTags
    | e :: outer => attach ⟨outer, d.root⟩ e.close
  | .text content => d.addText (decoded content)
  | .cdata content => d.addText (content.decode.mapError .invalidUtf8)
  | .reference name => d.addText (resolved name)
  | .aside => .ok d
  | .broken fault => .error (.parse fault)

def finish (d : Document) : Except Error Node :=
  match d.opened, d.root with
  | _ :: _, _ => .error .unbalancedTags
  | [], some node => .ok node
  | [], none => .error .noRoot

def ofEvents (events : List Event) : Except Error Node := do
  finish (← events.foldlM step start)

end Document

namespace Node

def ofSymbols (text : Symbols) : Except Error Node :=
  Document.ofEvents (Event.scan text.withoutMark)

def ofText (text : String) : Except Error Node := ofSymbols (.ofText text)

def ofOctets (octets : List UInt8) : Except Error Node := ofSymbols (.ofOctets octets)

end Node

end DataTree.Xml
