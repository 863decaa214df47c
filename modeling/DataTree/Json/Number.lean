import DataTree.Json
import DataTree.Json.Error

namespace DataTree.Json

def isDigit (b : UInt8) : Bool := 0x30 ≤ b && b ≤ 0x39

/-- Appends digits to a significand as long as it stays below `bound`; gives the number appended. -/
def appendDigits (bound significand : Nat) : List UInt8 → Nat × Nat
  | [] => (significand, 0)
  | b :: rest =>
    let next := 10 * significand + (b.toNat - 0x30)
    if next < bound then
      let (significand, count) := appendDigits bound next rest
      (significand, count + 1)
    else (significand, 0)

def power10 (n : Nat) : Double := .round false (pow10 n) 1

/-- `x * 10 ^ exponent`, in steps that a double can hold; none if it is too large. -/
def scale (x : Double) (exponent : Int) : Option Double :=
  if 308 < exponent then if x.equals (.ofInt 0) then some x else none
  else if 0 ≤ exponent then
    let product := x.mul (power10 exponent.toNat)
    if product.isFinite then some product else none
  else if -308 ≤ exponent then some (x.div (power10 (-exponent).toNat))
  else if x.equals (.ofInt 0) then some x
  else scale (x.div (power10 308)) (exponent + 308)
termination_by (-exponent).toNat
decreasing_by omega

def signed (negative : Bool) (x : Double) : Double := if negative then x.neg else x

namespace Number

def ofDouble? (x : Double) : Option Number :=
  if h : x.isFinite = true then some (.real x h) else none

def ofWhole (negative : Bool) (n : Nat) : Option Number :=
  if negative then
    if h : 0 < n ∧ n ≤ 0x8000000000000000 then some (.integer (-n) (by omega))
    else ofDouble? (signed true (.ofInt n))
  else if h : n < 0x10000000000000000 then some (.integer n (by omega))
  else none

structure Written where
  negative : Bool
  whole : List UInt8
  fraction : List UInt8
  /-- The sign and the digits of the exponent, if there is one. -/
  exponent : Option (Bool × List UInt8)

/-- The value of a written number. Digits that the significand cannot take are dropped: those before
the point count for the exponent. Of the exponent's digits those are read that 31 bits can take;
with more, a number other than zero overflows or becomes zero. -/
def Written.value (w : Written) : Option Number :=
  let (significand, taken) := appendDigits 0x10000000000000000 0 w.whole
  let dropped := w.whole.length - taken
  if w.fraction.isEmpty && w.exponent.isNone && dropped == 0 then ofWhole w.negative significand
  else
    let (significand, places) := appendDigits 0x10000000000000000 significand w.fraction
    let shift : Int := (dropped : Int) - places
    let double (exponent : Int) : Option Number :=
      (scale (.ofInt significand) exponent).bind fun x => ofDouble? (signed w.negative x)
    match w.exponent with
    | none => double shift
    | some (down, digits) =>
      let (exponent, count) := appendDigits 0x80000000 0 digits
      if count < digits.length then
        if significand = 0 ∨ down then ofDouble? (signed w.negative (.ofInt 0)) else none
      else double (if down then shift - exponent else shift + exponent)

end Number

end DataTree.Json
