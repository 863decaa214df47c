import DataTree.Text.Numeral

namespace DataTree

inductive Key
  | name (text : String)
  | index (position : Nat)
deriving DecidableEq

abbrev Path := List Key

namespace Key

def text : Key → String
  | .name text => text
  | .index position => toString position

def position? : Key → Option Nat
  | .name text => (Text.unsigned 10 0x10000000000000000 text.toList).toOption
  | .index position => some position

def isIndex : Key → Bool
  | .name _ => false
  | .index _ => true

def step : Key → String
  | .name text => "." ++ text
  | .index position => "[" ++ toString position ++ "]"

end Key

/-- A written path: the steps from the root on, and a word for the root itself. -/
def Path.text (path : Path) : String :=
  if path.isEmpty then "<root>" else String.join (path.map Key.step)

end DataTree
