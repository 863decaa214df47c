import DataTree.Decimal

namespace DataTree

/-- Which of two equally near decimals is taken. -/
inductive Tie
  | up
  | even
deriving DecidableEq

/-- The reals that round to a float, with the float itself, as multiples of a quarter of its last
place, which is `2 ^ exponent`. The ends belong to it iff the mantissa is even. -/
structure Neighbourhood where
  lower : Nat
  value : Nat
  upper : Nat
  exponent : Int
  closed : Bool

namespace Neighbourhood

/-- Below a power of two the floats lie twice as close. -/
def of (F : Format) (mantissa : Nat) (exponent : Int) : Neighbourhood :=
  let narrow := mantissa = 1 <<< (F.precision - 1) ∧ F.minExponent < exponent
  { lower := if narrow then 4 * mantissa - 1 else 4 * mantissa - 2
    value := 4 * mantissa
    upper := 4 * mantissa + 2
    exponent := exponent - 2
    closed := mantissa % 2 == 0 }

/-- A multiple of the quarter place and a decimal over a common denominator. -/
def scaled (n : Neighbourhood) (quarters : Nat) (d : Decimal) : Nat × Nat :=
  (quarters <<< n.exponent.toNat * pow10 (-d.exponent).toNat,
    (d.digits * pow10 d.exponent.toNat) <<< (-n.exponent).toNat)

def contains (n : Neighbourhood) (d : Decimal) : Bool :=
  let (low, x) := n.scaled n.lower d
  let (high, y) := n.scaled n.upper d
  if n.closed then low ≤ x && y ≤ high else low < x && y < high

def leading (n : Neighbourhood) : Int :=
  let num := n.value <<< n.exponent.toNat
  let den : Nat := 1 <<< (-n.exponent).toNat
  if den ≤ num then (decimalLength (num / den) - 1 : Nat)
  else -(decimalLength ((den - 1) / num) : Int)

def below (n : Neighbourhood) (exponent : Int) : Decimal :=
  let num := n.value <<< n.exponent.toNat * pow10 (-exponent).toNat
  let den := pow10 exponent.toNat <<< (-n.exponent).toNat
  ⟨num / den, exponent⟩

def above (n : Neighbourhood) (exponent : Int) : Decimal :=
  ⟨(n.below exponent).digits + 1, exponent⟩

/-- The decimal on a grid that is taken for the float, if one of its neighbours reads back. -/
def onGrid (n : Neighbourhood) (tie : Tie) (exponent : Int) : Option Decimal :=
  let low := n.below exponent
  let high := n.above exponent
  match n.contains low, n.contains high with
  | false, false => none
  | true, false => some low
  | false, true => some high
  | true, true =>
    let (twice, sum) := n.scaled (2 * n.value) ⟨low.digits + high.digits, exponent⟩
    if twice < sum then some low
    else if sum < twice then some high
    else match tie with
      | .up => some high
      | .even => if low.digits % 2 = 0 then some low else some high

end Neighbourhood

/-- Tries one digit, two digits and so on. A format of `precision` bits never needs more digits
than it has bits; the value rounded down to so many digits is the answer if none reads back. -/
def Binary.shortest (F : Format) (tie : Tie) (mantissa : Nat) (exponent : Int) : Decimal :=
  let n := Neighbourhood.of F mantissa exponent
  let grid (digits : Nat) : Int := n.leading - digits
  ((List.range F.precision).findSome? fun digits => n.onGrid tie (grid digits)).getD
      (n.below (grid F.precision))
    |>.strip

end DataTree
