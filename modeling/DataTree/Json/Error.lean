import DataTree.Fault

namespace DataTree.Json

inductive Cause
  | endInValue
  | endInList
  | endInObject
  | endInString
  | expectedValue
  | expectedIdent
  | expectedColon
  | expectedCommaOrBracket
  | expectedCommaOrBrace
  | trailingComma
  | trailingCharacters
  | keyNotString
  | recursionLimit
  | controlCharacter
  | invalidEscape
  | loneSurrogate
  | unpairedEscape
  | invalidUnicode
  | invalidNumber
  | numberOutOfRange

def Cause.message : Cause → String
  | endInValue => "EOF while parsing a value"
  | endInList => "EOF while parsing a list"
  | endInObject => "EOF while parsing an object"
  | endInString => "EOF while parsing a string"
  | expectedValue => "expected value"
  | expectedIdent => "expected ident"
  | expectedColon => "expected `:`"
  | expectedCommaOrBracket => "expected `,` or `]`"
  | expectedCommaOrBrace => "expected `,` or `\x7d`"
  | trailingComma => "trailing comma"
  | trailingCharacters => "trailing characters"
  | keyNotString => "key must be a string"
  | recursionLimit => "recursion limit exceeded"
  | controlCharacter => "control character (\\u0000-\\u001F) found while parsing a string"
  | invalidEscape => "invalid escape"
  | loneSurrogate => "lone leading surrogate in hex escape"
  | unpairedEscape => "unexpected end of hex escape"
  | invalidUnicode => "invalid unicode code point"
  | invalidNumber => "invalid number"
  | numberOutOfRange => "number out of range"

def Cause.isEnd : Cause → Bool
  | endInValue | endInList | endInObject | endInString => true
  | _ => false

/-- A cause and the number of octets that are left behind its place. -/
structure Failure where
  cause : Cause
  left : Nat
  /-- How many columns before that place the error is reported. -/
  back : Nat := 0

def Failure.before (cause : Cause) (rest : List UInt8) : Failure := ⟨cause, rest.length, 0⟩

def Failure.upon (cause : Cause) (rest : List UInt8) : Failure := ⟨cause, rest.length - 1, 0⟩

structure Error where
  cause : Cause
  line : Nat
  column : Nat

namespace Error

/-- Lines count from one, and the column is the number of octets after the last line feed. -/
def of (text : List UInt8) (failure : Failure) : Error :=
  let read := text.take (text.length - failure.left)
  { cause := failure.cause
    line := read.count 0x0A + 1
    column := (read.reverse.takeWhile (· != 0x0A)).length - failure.back }

def message (e : Error) : String :=
  "invalid JSON: " ++ e.cause.message ++ " at line " ++ toString e.line ++ " column " ++
    toString e.column

def toError (e : Error) : DataTree.Error := .root (.dataCorrupted e.message)

end Error

end DataTree.Json
