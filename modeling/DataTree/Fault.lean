import DataTree.Key
import DataTree.Value.Text

namespace DataTree

inductive Fault
  /-- A required value is absent or null. -/
  | valueNotFound
  | typeMismatch (expected : String) (got : Kind)
  | keyNotFound (key : String)
  /-- The tree cannot be read or written as asked. -/
  | dataCorrupted (reason : String)
  | noCaseForRawValue (raw : Value)
  | cannotRepresentAsArray
  /-- A container was asked for over a node of another shape. -/
  | incompatibleType (expected : String) (actual : Kind)
  | outOfBounds (index len : Nat)
  | numberOutOfRange (value target : String)
  /-- The destination of a write refused it. -/
  | cannotSet (cause : Fault) (path : Path)
  | custom (message : String)

structure Error where
  fault : Fault
  path : Path

/-- A message with the place in front, unless it is the root. -/
def located (path : Path) (message : String) : String :=
  if path.isEmpty then message else "at " ++ path.text ++ ": " ++ message

namespace Fault

def message : Fault → String
  | .valueNotFound => "value not found"
  | .typeMismatch expected got => "type mismatch: expected " ++ expected ++ ", got " ++ got.name
  | .keyNotFound key => "key `" ++ key ++ "` not found"
  | .dataCorrupted reason => "data corrupted: " ++ reason
  | .noCaseForRawValue raw => "no case matches raw value " ++ Value.text raw
  | .cannotRepresentAsArray => "cannot represent as array"
  | .incompatibleType expected actual =>
    "incompatible type: expected " ++ expected ++ ", got " ++ actual.name
  | .outOfBounds index len =>
    "index " ++ toString index ++ " out of bounds for array of length " ++ toString len
  | .numberOutOfRange value target => "number " ++ value ++ " out of range for " ++ target
  | .cannotSet cause path => "cannot set value: " ++ located path cause.message
  | .custom message => message

def expectedObject (got : Kind) : Fault := .typeMismatch "object" got

def expectedArray (got : Kind) : Fault := .typeMismatch "array" got

def isNotFound : Fault → Bool
  | .valueNotFound | .keyNotFound _ => true
  | _ => false

def isTypeError : Fault → Bool
  | .typeMismatch .. | .incompatibleType .. | .numberOutOfRange .. | .cannotRepresentAsArray => true
  | _ => false

end Fault

namespace Error

def root (fault : Fault) : Error := ⟨fault, []⟩

def custom (message : String) : Error := root (.custom message)

def placedAt (e : Error) (path : Path) : Error := ⟨e.fault, path⟩

def within (keys : Path) (e : Error) : Error := ⟨e.fault, keys ++ e.path⟩

/-- An error without a place gets one. -/
def orAt (e : Error) (path : Path) : Error := if e.path.isEmpty then e.placedAt path else e

def message (e : Error) : String := located e.path e.fault.message

def source (e : Error) : Option Error :=
  match e.fault with
  | .cannotSet cause path => some ⟨cause, path⟩
  | _ => none

end Error

end DataTree
