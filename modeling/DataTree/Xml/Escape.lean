import DataTree.Text.Utf8

namespace DataTree.Xml

inductive Escape
  | text
  | attributeValue
deriving DecidableEq

namespace Escape

def replacement? (context : Escape) (c : Char) : Option (List Char) :=
  match c with
  | '&' => some ['&', 'a', 'm', 'p', ';']
  | '<' => some ['&', 'l', 't', ';']
  | '>' => some ['&', 'g', 't', ';']
  | '\"' => if context = .attributeValue then some ['&', 'q', 'u', 'o', 't', ';'] else none
  | _ => none

/-- A part of an escaped text: a run of the text from one octet up to another, or a reference. -/
inductive Fragment
  | run (start stop : Nat)
  | reference (cs : List Char)
deriving DecidableEq

/-- The text of a fragment. A run has to begin and to end between characters. -/
def Fragment.of (s : String) : Fragment → String
  | run start stop => String.Pos.Raw.extract s ⟨start⟩ ⟨stop⟩
  | reference cs => String.ofList cs

/-- Goes over the octets from `index` on. Those from `start` on have not been copied. -/
def fragmentsFrom (context : Escape) (start index : Nat) : List UInt8 → List Fragment
  | [] => [.run start index]
  | octet :: rest =>
    match context.replacement? (Char.ofUInt8 octet) with
    | some cs =>
      .run start index :: .reference cs :: fragmentsFrom context (index + 1) (index + 1) rest
    | none => fragmentsFrom context start (index + 1) rest

def fragments (context : Escape) (s : String) : List Fragment :=
  context.fragmentsFrom 0 0 (Utf8.encode s)

def apply (context : Escape) (s : String) : String :=
  String.join ((context.fragments s).map (Fragment.of s))

end Escape

end DataTree.Xml
