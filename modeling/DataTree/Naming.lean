import DataTree.Text.Words

namespace DataTree

inductive Naming
  | identity
  | upperCamel
  /-- Capitalised words with spaces between them. -/
  | title
  | snake
  | kebab
deriving DecidableEq

namespace Naming

def word : Naming → List Char → List Char
  | .identity => id
  | .upperCamel | .title => Text.capitalized
  | .snake | .kebab => Text.lowered

def separator : Naming → List Char
  | .identity | .upperCamel => []
  | .title => [' ']
  | .snake => ['_']
  | .kebab => ['-']

def joined (policy : Naming) (body : List Char) : List Char :=
  policy.separator.intercalate ((Text.words body).map policy.word)

def applyChars (policy : Naming) (name : List Char) : List Char :=
  match policy with
  | .identity => name
  | policy => name.takeWhile (· == '_') ++ policy.joined (name.dropWhile (· == '_'))

def apply (policy : Naming) (name : String) : String :=
  String.ofList (policy.applyChars name.toList)

end Naming

end DataTree
