import DataTree.Decimal.Shortest

namespace DataTree

structure Layout where
  /-- Whether a number with this leading exponent is written without an exponent. -/
  positional : Int → Bool
  /-- Whether a whole number keeps a point and a zero. -/
  pointZero : Bool
  /-- Whether a positive exponent has its sign. -/
  exponentPlus : Bool
  tie : Tie

namespace Layout

def plain : Layout := ⟨fun _ => true, false, false, .up⟩

/-- A point always, and an exponent below `1e-4` and from `1e16` on. -/
def pointed : Layout := ⟨fun e => -4 ≤ e && e ≤ 15, true, false, .up⟩

def zeros (n : Nat) : List Char := List.replicate n '0'

/-- Digits with the point after as many of them as the leading exponent asks. -/
def withPoint (l : Layout) (digits : List Char) (leading : Int) : List Char :=
  if leading < 0 then '0' :: '.' :: (zeros (-leading - 1).toNat ++ digits)
  else
    let whole := leading.toNat + 1
    if digits.length ≤ whole then
      digits ++ zeros (whole - digits.length) ++ (if l.pointZero then ['.', '0'] else [])
    else digits.take whole ++ '.' :: digits.drop whole

def withExponent (l : Layout) (digits : List Char) (leading : Int) : List Char :=
  let mantissa := match digits with
    | d :: e :: rest => d :: '.' :: e :: rest
    | short => short
  let mark := if leading < 0 then ['e', '-'] else if l.exponentPlus then ['e', '+'] else ['e']
  mantissa ++ mark ++ Nat.toDigits 10 leading.natAbs

def magnitude (l : Layout) (d : Decimal) : List Char :=
  let digits := Nat.toDigits 10 d.digits
  if l.positional d.leading then l.withPoint digits d.leading
  else l.withExponent digits d.leading

/-- The characters of a float. Zero counts as leading with the unit place. -/
def chars {F : Format} (l : Layout) : Binary F → List Char
  | .nan => ['N', 'a', 'N']
  | .infinity negative => (if negative then ['-'] else []) ++ ['i', 'n', 'f']
  | .finite negative m e _ =>
      (if negative then ['-'] else []) ++
        l.magnitude (if m = 0 then ⟨0, 0⟩ else Binary.shortest F l.tie m e)

def text {F : Format} (l : Layout) (x : Binary F) : String := String.ofList (l.chars x)

end Layout

end DataTree
