import DataTree.Json

namespace DataTree.Json

def shortEscapes : List (Char × Char) :=
  [('\"', '\"'), ('\\', '\\'), ('\x08', 'b'), ('\x0c', 'f'), ('\n', 'n'), ('\r', 'r'), ('\t', 't')]

def hex4 (n : Nat) : List Char :=
  let digits := Nat.toDigits 16 n
  List.replicate (4 - digits.length) '0' ++ digits

def escaped (c : Char) : List Char :=
  match shortEscapes.lookup c with
  | some letter => ['\\', letter]
  | none => if c.toNat < 32 then '\\' :: 'u' :: hex4 c.toNat else [c]

def stringText (s : String) : String :=
  String.ofList ('\"' :: (s.toList.flatMap escaped ++ ['\"']))

def Scalar.text : Scalar → String
  | .null => "null"
  | .bool b => if b then "true" else "false"
  | .number n => n.text
  | .string s => stringText s

mutual

def compact : Json → String
  | .leaf x => x.text
  | .array items => "[" ++ String.intercalate "," (compactItems items) ++ "]"
  | .object fields => "\x7b" ++ String.intercalate "," (compactFields fields) ++ "\x7d"

def compactItems : List Json → List String
  | [] => []
  | x :: xs => compact x :: compactItems xs

def compactFields : List (String × Json) → List String
  | [] => []
  | (name, x) :: rest => (stringText name ++ ":" ++ compact x) :: compactFields rest

end

/-- A line of its own for each part, between brackets; nothing between brackets without parts. -/
def bracketed (left right : String) (depth : Nat) (parts : List String) : String :=
  let line (depth : Nat) : String := "\n" ++ String.join (List.replicate depth "  ")
  if parts.isEmpty then left ++ right
  else left ++ line (depth + 1) ++ String.intercalate ("," ++ line (depth + 1)) parts ++
    line depth ++ right

mutual

def pretty (depth : Nat) : Json → String
  | .leaf x => x.text
  | .array items => bracketed "[" "]" depth (prettyItems depth items)
  | .object fields => bracketed "\x7b" "\x7d" depth (prettyFields depth fields)

def prettyItems (depth : Nat) : List Json → List String
  | [] => []
  | x :: xs => pretty (depth + 1) x :: prettyItems depth xs

def prettyFields (depth : Nat) : List (String × Json) → List String
  | [] => []
  | (name, x) :: rest =>
    (stringText name ++ ": " ++ pretty (depth + 1) x) :: prettyFields depth rest

end

end DataTree.Json
