import DataTree.Binary
import DataTree.Kind
import DataTree.Tree

namespace DataTree

inductive Scalar
  | null
  | bool (b : Bool)
  | int (i : Int64)
  | double (x : Double)
  | string (s : String)

abbrev Value := Tree Scalar

namespace Value

@[match_pattern] abbrev null : Value := .leaf .null

@[match_pattern] abbrev bool (b : Bool) : Value := .leaf (.bool b)

@[match_pattern] abbrev int (i : Int64) : Value := .leaf (.int i)

@[match_pattern] abbrev double (x : Double) : Value := .leaf (.double x)

@[match_pattern] abbrev string (s : String) : Value := .leaf (.string s)

end Value

namespace Scalar

def kind? : Scalar → Option ScalarKind
  | .null => none
  | .bool _ => some .bool
  | .int _ => some .int
  | .double _ => some .double
  | .string _ => some .string

def equals : Scalar → Scalar → Bool
  | .null, .null => true
  | .bool a, .bool b => a == b
  | .int a, .int b => a == b
  | .double a, .double b => a.equals b
  | .string a, .string b => a == b
  | _, _ => false

end Scalar

namespace Value

def bool? : Value → Option Bool
  | bool b => some b
  | _ => none

def int? : Value → Option Int64
  | int i => some i
  | _ => none

def double? : Value → Option Double
  | double x => some x
  | _ => none

def string? : Value → Option String
  | string s => some s
  | _ => none

def items? : Value → Option (List Value)
  | .array items => some items
  | _ => none

def fields? : Value → Option (List (String × Value))
  | .object fields => some fields
  | _ => none

mutual

/-- Equality of content: objects are equal whatever the order of their fields. -/
def equals : Value → Value → Bool
  | .leaf x, .leaf y => x.equals y
  | .array xs, .array ys => equalItems xs ys
  | .object xs, .object ys => xs.length == ys.length && fieldsWithin xs ys
  | _, _ => false

def equalItems : List Value → List Value → Bool
  | [], [] => true
  | x :: xs, y :: ys => equals x y && equalItems xs ys
  | _, _ => false

/-- Whether every field is found with an equal value among other fields. -/
def fieldsWithin : List (String × Value) → List (String × Value) → Bool
  | [], _ => true
  | (name, x) :: rest, others =>
    (match List.lookup name others with
      | some y => equals x y
      | none => false) && fieldsWithin rest others

end

end Value

end DataTree
