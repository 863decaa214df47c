import DataTree.Text.Alphanumeric
import DataTree.Text.LetterCase

namespace DataTree.Text

/-- The case of the last letter of the word so far; other characters do not change it. -/
inductive WordMode
  | boundary
  | lowercase
  | uppercase
deriving DecidableEq

def WordMode.after (mode : WordMode) (c : Char) : WordMode :=
  if isLowercase c then .lowercase else if isUppercase c then .uppercase else mode

/-- The maximal runs of letters and digits; between two other characters stands an empty one. -/
def pieces : List Char → List (List Char)
  | [] => [[]]
  | c :: cs =>
    match pieces cs with
    | piece :: more => if isAlphanumeric c then (c :: piece) :: more else [] :: piece :: more
    | [] => [[c]]

def pieceWords (mode : WordMode) (word : List Char) : List Char → List (List Char)
  | [] => []
  | [c] => [word ++ [c]]
  | c :: next :: rest =>
    let nextMode := mode.after c
    if nextMode = .lowercase ∧ isUppercase next then
      (word ++ [c]) :: pieceWords .boundary [] (next :: rest)
    else if mode = .uppercase ∧ isUppercase c ∧ isLowercase next then
      word :: pieceWords .boundary [c] (next :: rest)
    else pieceWords nextMode (word ++ [c]) (next :: rest)

def words (cs : List Char) : List (List Char) := (pieces cs).flatMap (pieceWords .boundary [])

/-- The lowercase form of a word; a capital sigma at its end takes its final form. -/
def lowered : List Char → List Char
  | [] => []
  | ['Σ'] => ['ς']
  | c :: cs => toLowercase c ++ lowered cs

/-- The word with its first character uppercase and the others lowercase. -/
def capitalized : List Char → List Char
  | [] => []
  | c :: cs => toUppercase c ++ lowered cs

end DataTree.Text
