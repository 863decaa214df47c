import DataTree.Json.Number
import DataTree.Text.Span
import DataTree.Text.Utf8

namespace DataTree.Json

structure Parsed (α : Type) (text : List UInt8) where
  value : α
  rest : List UInt8
  length_le : rest.length ≤ text.length

namespace Parsed

variable {α β : Type} {s t : List UInt8}

def map (f : α → β) (p : Parsed α s) : Parsed β s := ⟨f p.value, p.rest, p.length_le⟩

def widen (p : Parsed α s) (h : s.length ≤ t.length) : Parsed α t :=
  ⟨p.value, p.rest, Nat.le_trans p.length_le h⟩

end Parsed

abbrev Reader (α : Type) := (text : List UInt8) → Except Failure (Parsed α text)

def isBlank (b : UInt8) : Bool := b == 0x20 || b == 0x0A || b == 0x09 || b == 0x0D

def skip (text : List UInt8) : List UInt8 := text.dropWhile isBlank

theorem length_skip_le (text : List UInt8) : (skip text).length ≤ text.length :=
  Text.length_dropWhile_le isBlank text

theorem length_lt_of_skip {text rest : List UInt8} {b : UInt8} (h : skip text = b :: rest) :
    rest.length < text.length :=
  Text.length_lt_of_dropWhile h

def hexDigit? (b : UInt8) : Option Nat :=
  if isDigit b then some (b.toNat - 0x30)
  else if 0x61 ≤ b && b ≤ 0x66 then some (b.toNat - 0x61 + 10)
  else if 0x41 ≤ b && b ≤ 0x46 then some (b.toNat - 0x41 + 10)
  else none

def hexUnit : Reader Nat
  | a :: b :: c :: d :: rest =>
    match [a, b, c, d].mapM hexDigit? with
    | some digits =>
      .ok ⟨digits.foldl (16 * · + ·) 0, rest, by simp only [List.length_cons]; omega⟩
    | none => .error (.before .invalidEscape rest)
  | _ => .error (.before .endInString [])

def isLowSurrogate (n : Nat) : Bool := 0xDC00 ≤ n && n < 0xE000

def isHighSurrogate (n : Nat) : Bool := 0xD800 ≤ n && n < 0xDC00

def escapeOctet (b : UInt8) : Reader Unit
  | [] => .error (.before .endInString [])
  | c :: rest =>
    if c = b then .ok ⟨(), rest, Nat.le_succ _⟩ else .error (.before .unpairedEscape rest)

/-- The character behind `\u`; a high surrogate needs its low half to follow in the same form. -/
def unicodeEscape : Reader Char := fun text => do
  let unit ← hexUnit text
  if isLowSurrogate unit.value then throw (.before .loneSurrogate unit.rest)
  if isHighSurrogate unit.value then
    let backslash ← escapeOctet 0x5C unit.rest
    let letter ← escapeOctet 0x75 backslash.rest
    let low ← hexUnit letter.rest
    if isLowSurrogate low.value then
      let code := 0x10000 + (unit.value - 0xD800) * 0x400 + (low.value - 0xDC00)
      return ((low.map fun _ => Char.ofNat code).widen letter.length_le).widen
        (Nat.le_trans backslash.length_le unit.length_le)
    else throw (.before .loneSurrogate low.rest)
  else return unit.map Char.ofNat

def escapes : List (UInt8 × UInt8) :=
  [(0x22, 0x22), (0x5C, 0x5C), (0x2F, 0x2F), (0x62, 0x08), (0x66, 0x0C), (0x6E, 0x0A), (0x72, 0x0D),
    (0x74, 0x09)]

/-- The octets that an escape stands for; the backslash has been read. -/
def escape : Reader (List UInt8)
  | [] => .error (.before .endInString [])
  | b :: rest =>
    match escapes.lookup b with
    | some c => .ok ⟨[c], rest, Nat.le_succ _⟩
    | none =>
      if b = 0x75 then
        (unicodeEscape rest).map fun p => (p.map String.utf8EncodeChar).widen (Nat.le_succ _)
      else .error (.before .invalidEscape rest)

/-- The octets of a string up to its closing quote, which is read as well. -/
def stringOctets : Reader (List UInt8)
  | [] => .error (.before .endInString [])
  | b :: rest =>
    if b = 0x22 then .ok ⟨[], rest, Nat.le_succ _⟩
    else if b = 0x5C then do
      let piece ← escape rest
      let more ← stringOctets piece.rest
      return (more.map (piece.value ++ ·)).widen (Nat.le_trans piece.length_le (Nat.le_succ _))
    else if b < 0x20 then .error (.before .controlCharacter rest)
    else (stringOctets rest).map fun more => (more.map (b :: ·)).widen (Nat.le_succ _)
termination_by text => text.length
decreasing_by
  · exact Nat.lt_succ_of_le piece.length_le
  · exact Nat.lt_succ_self _

def string : Reader String := fun text => do
  let octets ← stringOctets text
  match Utf8.decode octets.value with
  | .ok s => return octets.map fun _ => s
  | .error fault =>
    throw ⟨.invalidUnicode, octets.rest.length, octets.value.length - fault.index⟩

def word (value : Scalar) : (letters : List UInt8) → Reader Scalar
  | [], text => .ok ⟨value, text, Nat.le_refl _⟩
  | _ :: _, [] => .error (.before .endInValue [])
  | letter :: letters, b :: rest =>
    if b = letter then (word value letters rest).map fun p => p.widen (Nat.le_succ _)
    else .error (.before .expectedIdent rest)

def digits (text : List UInt8) : Parsed (List UInt8) text :=
  ⟨text.takeWhile isDigit, text.dropWhile isDigit, Text.length_dropWhile_le isDigit text⟩

/-- The digits before a point. A zero stands alone. -/
def wholeDigits : Reader (List UInt8)
  | [] => .error (.before .endInValue [])
  | b :: rest =>
    if !isDigit b then .error (.before .invalidNumber rest)
    else if b = 0x30 then
      if rest.head?.any isDigit then .error (.upon .invalidNumber rest)
      else .ok ⟨[b], rest, Nat.le_succ _⟩
    else .ok (digits (b :: rest))

def fractionDigits : Reader (List UInt8)
  | [] => .ok ⟨[], [], Nat.le_refl _⟩
  | b :: rest =>
    if b = 0x2E then
      let found := digits rest
      if found.value.isEmpty then
        .error (.upon (if rest.isEmpty then .endInValue else .invalidNumber) rest)
      else .ok (found.widen (Nat.le_succ _))
    else .ok ⟨[], b :: rest, Nat.le_refl _⟩

def sign : (text : List UInt8) → Parsed Bool text
  | [] => ⟨false, [], Nat.le_refl _⟩
  | b :: rest =>
    if b = 0x2B then ⟨false, rest, Nat.le_succ _⟩
    else if b = 0x2D then ⟨true, rest, Nat.le_succ _⟩
    else ⟨false, b :: rest, Nat.le_refl _⟩

/-- An exponent, if there is one: its sign and at least one digit. -/
def exponent : Reader (Option (Bool × List UInt8))
  | [] => .ok ⟨none, [], Nat.le_refl _⟩
  | b :: rest =>
    if b = 0x65 ∨ b = 0x45 then
      let down := sign rest
      let found := digits down.rest
      match down.rest with
      | [] => .error (.before .endInValue [])
      | _ :: after =>
        if found.value.isEmpty then .error (.before .invalidNumber after)
        else .ok ((found.map fun digits => some (down.value, digits)).widen
          (Nat.le_trans down.length_le (Nat.le_succ _)))
    else .ok ⟨none, b :: rest, Nat.le_refl _⟩

/-- Where a number is found too large: at its end, or behind the first digit of the exponent that
leads beyond 31 bits. -/
def excessLeft (exponent : Option (Bool × List UInt8)) (rest : List UInt8) : Nat :=
  match exponent with
  | none => rest.length
  | some (_, digits) =>
    let taken := (appendDigits 0x80000000 0 digits).2
    rest.length + (digits.length - taken - 1)

def number (negative : Bool) : Reader Scalar := fun text => do
  let whole ← wholeDigits text
  let fraction ← fractionDigits whole.rest
  let power ← exponent fraction.rest
  match Number.Written.value ⟨negative, whole.value, fraction.value, power.value⟩ with
  | some n =>
    return (power.map fun _ => .number n).widen (Nat.le_trans fraction.length_le whole.length_le)
  | none => throw ⟨.numberOutOfRange, excessLeft power.value power.rest, 0⟩

def scalar : Reader Scalar
  | [] => .error (.upon .endInValue [])
  | b :: rest =>
    let behind (p : Parsed Scalar rest) : Parsed Scalar (b :: rest) := p.widen (Nat.le_succ _)
    if b = 0x6E then (word .null [0x75, 0x6C, 0x6C] rest).map behind
    else if b = 0x74 then (word (.bool true) [0x72, 0x75, 0x65] rest).map behind
    else if b = 0x66 then (word (.bool false) [0x61, 0x6C, 0x73, 0x65] rest).map behind
    else if b = 0x22 then (string rest).map fun p => behind (p.map .string)
    else if b = 0x2D then (number true rest).map behind
    else if isDigit b then number false (b :: rest)
    else .error (.upon .expectedValue (b :: rest))

def moreItems (item : Reader Json) : Reader (List Json) := fun text =>
  match h : skip text with
  | [] => .error (.upon .endInList [])
  | b :: rest =>
    have shorter := length_lt_of_skip h
    if b = 0x5D then .ok ⟨[], rest, Nat.le_of_lt shorter⟩
    else if b ≠ 0x2C then .error (.upon .expectedCommaOrBracket (b :: rest))
    else if (skip rest).head? = some 0x5D then .error (.upon .trailingComma (skip rest))
    else do
      let first ← item rest
      let more ← moreItems item first.rest
      return (more.map (first.value :: ·)).widen
        (Nat.le_trans first.length_le (Nat.le_of_lt shorter))
termination_by text => text.length
decreasing_by exact Nat.lt_of_le_of_lt first.length_le shorter

def list (item : Reader Json) : Reader (List Json) := fun text =>
  match h : skip text with
  | [] => .error (.upon .endInList [])
  | b :: rest =>
    if b = 0x5D then .ok ⟨[], rest, Nat.le_of_lt (length_lt_of_skip h)⟩
    else do
      let first ← item text
      let more ← moreItems item first.rest
      return (more.map (first.value :: ·)).widen first.length_le

def field (item : Reader Json) : Reader (String × Json) := fun text =>
  match h : skip text with
  | [] => .error (.upon .endInValue [])
  | b :: rest => do
    if b ≠ 0x22 then throw (.upon .keyNotString (b :: rest))
    let name ← string rest
    match h' : skip name.rest with
    | [] => .error (.upon .endInObject [])
    | c :: rest' =>
      if c ≠ 0x3A then throw (.upon .expectedColon (c :: rest'))
      let value ← item rest'
      return ((value.map fun x => (name.value, x)).widen
        (Nat.le_of_lt (length_lt_of_skip h'))).widen
        (Nat.le_trans name.length_le (Nat.le_of_lt (length_lt_of_skip h)))

def moreFields (item : Reader Json) : Reader (List (String × Json)) := fun text =>
  match h : skip text with
  | [] => .error (.upon .endInObject [])
  | b :: rest =>
    have shorter := length_lt_of_skip h
    if b = 0x7D then .ok ⟨[], rest, Nat.le_of_lt shorter⟩
    else if b ≠ 0x2C then .error (.upon .expectedCommaOrBrace (b :: rest))
    else if (skip rest).head? = some 0x7D then .error (.upon .trailingComma (skip rest))
    else do
      let first ← field item rest
      let more ← moreFields item first.rest
      return (more.map (first.value :: ·)).widen
        (Nat.le_trans first.length_le (Nat.le_of_lt shorter))
termination_by text => text.length
decreasing_by exact Nat.lt_of_le_of_lt first.length_le shorter

/-- An object behind its opening brace. A repeated name replaces the value in its place. -/
def object (item : Reader Json) : Reader (List (String × Json)) := fun text =>
  match h : skip text with
  | [] => .error (.upon .endInObject [])
  | b :: rest =>
    if b = 0x7D then .ok ⟨[], rest, Nat.le_of_lt (length_lt_of_skip h)⟩
    else do
      let first ← field item text
      let more ← moreFields item first.rest
      return (more.map fun fields => Fields.ofPairs (first.value :: fields)).widen first.length_le

/-- A value in which lists and objects nest to at most the given depth. -/
def value (depth : Nat) : Reader Json := fun text =>
  match h : skip text with
  | [] => .error (.upon .endInValue [])
  | b :: rest =>
    let behind {α : Type} (p : Parsed α rest) : Parsed α text :=
      p.widen (Nat.le_of_lt (length_lt_of_skip h))
    if b = 0x5B ∨ b = 0x7B then
      match depth with
      | 0 => .error (.upon .recursionLimit (b :: rest))
      | depth + 1 =>
        if b = 0x5B then (list (value depth) rest).map fun p => behind (p.map Tree.array)
        else (object (value depth) rest).map fun p => behind (p.map Tree.object)
    else (scalar (b :: rest)).map fun p =>
      (p.map .leaf).widen (h ▸ length_skip_le text)

def depthLimit : Nat := 127

def ofOctets (text : List UInt8) : Except Error Json :=
  match value depthLimit text with
  | .error failure => .error (.of text failure)
  | .ok parsed =>
    match skip parsed.rest with
    | [] => .ok parsed.value
    | rest => .error (.of text (.upon .trailingCharacters rest))

def ofText (text : String) : Except Error Json := ofOctets (Utf8.encode text)

end DataTree.Json
