import DataTree.Text.Utf8

namespace DataTree.Xml

inductive Symbol
  | char (c : Char)
  | stray (octet : UInt8)
deriving DecidableEq

abbrev Symbols := List Symbol

namespace Symbol

def char? : Symbol → Option Char
  | .char c => some c
  | .stray _ => none

def octets : Symbol → List UInt8
  | .char c => String.utf8EncodeChar c
  | .stray octet => [octet]

def width : Symbol → Nat
  | .char c => c.utf8Size
  | .stray _ => 1

def isBlank (x : Symbol) : Bool :=
  x == .char ' ' || x == .char '\t' || x == .char '\n' || x == .char '\r'

def isQuote (x : Symbol) : Bool := x == .char '\'' || x == .char '\"'

end Symbol

namespace Symbols

def ofChars (cs : List Char) : Symbols := cs.map .char

def ofText (s : String) : Symbols := ofChars s.toList

def ofOctets : List UInt8 → Symbols
  | [] => []
  | b :: rest =>
    match Utf8.first b rest with
    | .ok (c, n) => .char c :: ofOctets (rest.drop n)
    | .error _ => .stray b :: ofOctets rest
termination_by octets => octets.length
decreasing_by all_goals simp only [List.length_drop, List.length_cons]; omega

def width : Symbols → Nat
  | [] => 0
  | x :: rest => x.width + width rest

def chars (text : Symbols) : Except Utf8.Fault (List Char) :=
  match text.mapM Symbol.char? with
  | some cs => .ok cs
  | none => Utf8.decodeFrom 0 (text.flatMap Symbol.octets)

def decode (text : Symbols) : Except Utf8.Fault String := (chars text).map String.ofList

def skipBlanks (text : Symbols) : Symbols := text.dropWhile Symbol.isBlank

def withoutMark : Symbols → Symbols
  | x :: rest => if x = .char '\ufeff' then rest else x :: rest
  | [] => []

end Symbols

structure Cut (text : Symbols) where
  before : Symbols
  after : Symbols
  length_le : after.length ≤ text.length

namespace Cut

variable {text : Symbols}

def cons (x : Symbol) (cut : Cut text) : Cut (x :: text) :=
  ⟨x :: cut.before, cut.after, Nat.le_trans cut.length_le (Nat.le_succ _)⟩

def at? (mark : Symbols) : (text : Symbols) → Option (Cut text)
  | [] => none
  | x :: rest =>
    if mark.isPrefixOf (x :: rest) then
      some ⟨[], (x :: rest).drop mark.length, by simp only [List.length_drop]; omega⟩
    else (at? mark rest).map (cons x)

end Cut

end DataTree.Xml
