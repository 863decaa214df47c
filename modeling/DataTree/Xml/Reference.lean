import DataTree.Text.Numeral
import DataTree.Text.Span
import DataTree.Xml.Error

namespace DataTree.Xml.Reference

def predefined : List (String × Char) :=
  [("lt", '<'), ("gt", '>'), ("amp", '&'), ("apos", '\''), ("quot", '\"')]

def predefined? (name : List Char) : Option Char := predefined.lookup (String.ofList name)

/-- The character of a code point, if it is a Unicode scalar value. -/
def character? (code : Nat) : Option Char :=
  if code.isValidChar then some (Char.ofNat code) else none

/-- The characters that a reference in text stands for; `raw` is what stands between ampersand and
semicolon. -/
def resolve (raw : List Char) : Except Malformed (List Char) :=
  match predefined? raw with
  | some c => .ok [c]
  | none =>
    match raw with
    | '#' :: digits =>
      let code := match digits with
        | 'x' :: hex => Text.unsigned 16 0x100000000 hex
        | 'X' :: hex => Text.unsigned 16 0x100000000 hex
        | _ => Text.unsigned 10 0x100000000 digits
      match code with
      | .error _ => .error (.characterReference (String.ofList raw))
      | .ok code =>
        match character? code with
        | some c => .ok [c]
        | none => .error (.codePoint code)
    | _ => .ok ('&' :: (raw ++ [';']))

def faultOf : Text.NumeralFault → CharacterFault
  | .empty => .empty
  | .badDigit => .badDigit
  | .tooLarge => .tooLarge

/-- The code point of a numeric reference in an attribute value, where a sign is refused. -/
def code (base : Nat) (digits : List Char) : Except CharacterFault Nat :=
  if digits.head?.any fun c => c == '+' || c == '-' then .error .signed
  else (Text.unsigned base 0x100000000 digits).mapError faultOf

/-- The character of a numeric reference in an attribute value, behind its number sign. -/
def numbered (digits : List Char) : Except CharacterFault Char := do
  let code ← match digits with
    | 'x' :: hex => code 16 hex
    | _ => code 10 digits
  if code = 0 then .error .zero
  else match character? code with
    | some c => .ok c
    | none => .error (.notScalar code)

/-- The character that a reference in an attribute value stands for. -/
def character (start : Nat) (name : List Char) : Except ReferenceFault Char :=
  match name with
  | '#' :: digits => (numbered digits).mapError .character
  | _ =>
    match predefined? name with
    | some c => .ok c
    | none =>
      let name := String.ofList name
      .error (.unrecognized start (start + name.utf8ByteSize) name)

def width : List Char → Nat
  | [] => 0
  | c :: cs => c.utf8Size + width cs

def isName (c : Char) : Bool := c != ';' && c != '&'

/-- Replaces the references in the rest of an attribute value; `total` octets is the whole of it. -/
def expand (total : Nat) : List Char → Except ReferenceFault (List Char)
  | [] => .ok []
  | c :: rest =>
    if c = '&' then
      let start := total - width (c :: rest)
      match h : rest.dropWhile isName with
      | ';' :: after => do
        have : after.length < rest.length + 1 := Nat.lt_succ_of_lt (Text.length_lt_of_dropWhile h)
        let x ← character (start + 1) (rest.takeWhile isName)
        return x :: (← expand total after)
      | _ => .error (.unterminated start total)
    else do return c :: (← expand total rest)
termination_by cs => cs.length

def expandAll (value : List Char) : Except ReferenceFault (List Char) := expand (width value) value

end DataTree.Xml.Reference
