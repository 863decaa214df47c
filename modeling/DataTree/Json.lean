import DataTree.Tree.Backend

namespace DataTree

namespace Json

inductive Number
  | integer (n : Int) (range : -0x8000000000000000 ≤ n ∧ n < 0x10000000000000000)
  | real (x : Double) (finite : x.isFinite = true)

namespace Number

/-- Point always, and an exponent below `1e-5` and from `1e16` on, with its sign. -/
def layout : Layout := ⟨fun e => -5 ≤ e && e ≤ 15, true, true, .even⟩

def text : Number → String
  | .integer n _ => toString n
  | .real x _ => layout.text x

def ofInt64 (i : Int64) : Number :=
  .integer i.toInt ⟨i.le_toInt, Int.lt_trans i.toInt_lt (by decide)⟩

end Number

inductive Scalar
  | null
  | bool (b : Bool)
  | number (n : Number)
  | string (s : String)

namespace Scalar

def kind? : Scalar → Option ScalarKind
  | .null => none
  | .bool _ => some .bool
  | .number (.integer ..) => some .int
  | .number (.real ..) => some .double
  | .string _ => some .string

def ofDouble (x : Double) : Except Fault Scalar :=
  if h : x.isFinite = true then .ok (.number (.real x h))
  else .error (.dataCorrupted (Layout.plain.text x ++ " cannot be stored as a JSON number"))

/-- Integers that need all 64 bits for their magnitude have no counterpart. -/
def toScalar : Scalar → Except Fault DataTree.Scalar
  | .null => .ok .null
  | .bool b => .ok (.bool b)
  | .number (.integer n _) =>
    if n < 0x8000000000000000 then .ok (.int (Int64.ofInt n))
    else .error (.numberOutOfRange (toString n) ScalarKind.int.name)
  | .number (.real x _) => .ok (.double x)
  | .string s => .ok (.string s)

end Scalar

instance : Leaf Scalar where
  null := .null
  bool := .bool
  int i := .number (.ofInt64 i)
  double := Scalar.ofDouble
  string := .string
  kind? := Scalar.kind?
  scalar := Scalar.toScalar

end Json

abbrev Json := Tree Json.Scalar

end DataTree
