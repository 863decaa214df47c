import DataTree.Value
import DataTree.Decimal.Layout
import DataTree.Text.Quoted

namespace DataTree

def Scalar.text : Scalar → String
  | .null => "null"
  | .bool b => if b then "true" else "false"
  | .int i => toString i.toInt
  | .double x => Layout.pointed.text x
  | .string s => Text.quoted s

namespace Value

mutual

def text : Value → String
  | .leaf x => x.text
  | .array items => "[" ++ String.intercalate ", " (itemTexts items) ++ "]"
  | .object fields => "\x7b" ++ String.intercalate ", " (fieldTexts fields) ++ "\x7d"

def itemTexts : List Value → List String
  | [] => []
  | x :: xs => text x :: itemTexts xs

def fieldTexts : List (String × Value) → List String
  | [] => []
  | (name, x) :: rest => (Text.quoted name ++ ": " ++ text x) :: fieldTexts rest

end

end Value

end DataTree
