import DataTree.Binary

namespace DataTree

/-- The magnitude `digits * 10 ^ exponent`. -/
structure Decimal where
  digits : Nat
  exponent : Int

def pow10 (n : Nat) : Nat := Nat.pow 10 n

def decimalLength (n : Nat) : Nat := (Nat.toDigits 10 n).length

namespace Decimal

variable {F : Format}

/-- The float nearest to a decimal. A magnitude far beyond the format on either side is settled
by its exponent alone, since `10 ^ k ≥ 2 ^ k`, so no power beyond the format is computed. -/
def toBinary (negative : Bool) (d : Decimal) : Binary F :=
  if d.digits = 0 then .round negative 0 1
  else if F.maxExponent + F.precision < d.exponent then .infinity negative
  else if d.exponent + decimalLength d.digits < F.minExponent - 1 then .round negative 0 1
  else .round negative (d.digits * pow10 d.exponent.toNat) (pow10 (-d.exponent).toNat)

def strip (d : Decimal) : Decimal :=
  if h : d.digits ≠ 0 ∧ d.digits % 10 = 0 then strip ⟨d.digits / 10, d.exponent + 1⟩ else d
termination_by d.digits
decreasing_by
  have := h.1
  exact Nat.div_lt_self (Nat.pos_of_ne_zero this) (by decide)

def leading (d : Decimal) : Int := d.exponent + (decimalLength d.digits - 1 : Nat)

end Decimal

end DataTree
