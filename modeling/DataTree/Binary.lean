namespace DataTree

/-- A binary format: mantissas below `2 ^ precision`, exponents between the two bounds. -/
structure Format where
  precision : Nat
  minExponent : Int
  maxExponent : Int

namespace Format

def double : Format := ⟨53, -1074, 971⟩

def single : Format := ⟨24, -149, 104⟩

/-- Below the full width a mantissa is admitted at the least exponent only, so no two pairs
denote one magnitude. -/
def Canonical (F : Format) (mantissa : Nat) (exponent : Int) : Prop :=
  mantissa < 1 <<< F.precision ∧ F.minExponent ≤ exponent ∧ exponent ≤ F.maxExponent ∧
    (exponent = F.minExponent ∨ 1 <<< (F.precision - 1) ≤ mantissa)

instance (F : Format) (m : Nat) (e : Int) : Decidable (F.Canonical m e) :=
  inferInstanceAs (Decidable (_ ∧ _ ∧ _ ∧ _))

def lastPlace (F : Format) (num den : Nat) : Int :=
  if num = 0 then F.minExponent
  else
    let estimate : Int := (num.log2 : Int) - den.log2
    let leading :=
      if den <<< estimate.toNat ≤ num <<< (-estimate).toNat then estimate else estimate - 1
    max F.minExponent (leading - (F.precision - 1))

end Format

inductive Binary (F : Format)
  | nan
  | infinity (negative : Bool)
  | finite (negative : Bool) (mantissa : Nat) (exponent : Int)
      (canonical : F.Canonical mantissa exponent)
deriving DecidableEq

abbrev Double := Binary .double

abbrev Single := Binary .single

/-- The whole number nearest to `num / den`, of two equally near ones the even one. -/
def roundHalfEven (num den : Nat) : Nat :=
  let q := num / den
  let r := num % den
  if den < 2 * r ∨ (2 * r = den ∧ q % 2 = 1) then q + 1 else q

namespace Binary

variable {F G : Format}

/-- A mantissa and exponent that the format does not hold stand for a magnitude beyond it. -/
def ofParts (negative : Bool) (mantissa : Nat) (exponent : Int) : Binary F :=
  if h : F.Canonical mantissa exponent then .finite negative mantissa exponent h
  else .infinity negative

/-- The float nearest to `num / den`. A mantissa rounded up to the full width moves to the next
exponent. -/
def round (negative : Bool) (num den : Nat) : Binary F :=
  let e := F.lastPlace num den
  let m := roundHalfEven (num <<< (-e).toNat) (den <<< e.toNat)
  if m = 1 <<< F.precision then ofParts negative (1 <<< (F.precision - 1)) (e + 1)
  else ofParts negative m e

def isFinite : Binary F → Bool
  | .finite .. => true
  | _ => false

def isNaN : Binary F → Bool
  | .nan => true
  | _ => false

/-- Equality as numbers: NaN equals nothing, and the two zeros are equal. -/
def equals : Binary F → Binary F → Bool
  | .infinity a, .infinity b => a == b
  | .finite a m e _, .finite b n f _ => (m == n && e == f) && (a == b || m == 0)
  | _, _ => false

def isWhole : Binary F → Bool
  | .finite _ m e _ => decide (0 ≤ e) || m % (1 <<< (-e).toNat) == 0
  | _ => false

/-- What is left of a float without its fraction, cut off at the ends of a range. What is no number
becomes zero. -/
def cutOff (least greatest : Int) : Binary F → Int
  | .nan => 0
  | .infinity negative => if negative then least else greatest
  | .finite negative m e _ =>
      let whole : Nat := m <<< e.toNat >>> (-e).toNat
      max least (min greatest (if negative then -whole else whole))

def toInt128 : Binary F → Int := cutOff (-(1 <<< 127 : Nat)) ((1 <<< 127 : Nat) - 1)

/-- The whole number that a float is, if it is one. Beyond 128 bits it is cut off. -/
def toInt? (x : Binary F) : Option Int := if x.isWhole then some x.toInt128 else none

def ofInt (i : Int) : Binary F := round (decide (i < 0)) i.natAbs 1

/-- The float equal to a whole number, if the format has it: the way back has to end at the
number. -/
def ofInt? (i : Int) : Option (Binary F) :=
  let x : Binary F := ofInt i
  if x.toInt128 = i then some x else none

def convert : Binary F → Binary G
  | .nan => .nan
  | .infinity negative => .infinity negative
  | .finite negative m e _ => round negative (m <<< e.toNat) (1 <<< (-e).toNat)

/-- The same float in another format, if it is there: what cannot be converted back is refused. -/
def narrow? (x : Binary F) : Option (Binary G) :=
  let y : Binary G := x.convert
  if x.isNaN || (y.convert : Binary F).equals x then some y else none

def neg : Binary F → Binary F
  | .nan => .nan
  | .infinity negative => .infinity (!negative)
  | .finite negative m e h => .finite (!negative) m e h

/-- The rounded sum. An exact zero is negative only if both operands are. -/
def add : Binary F → Binary F → Binary F
  | .infinity a, .infinity b => if a = b then .infinity a else .nan
  | .infinity a, .finite .. => .infinity a
  | .finite .., .infinity b => .infinity b
  | .finite a m e _, .finite b n f _ =>
      let place := min e f
      let signed (negative : Bool) (k : Nat) : Int := if negative then -k else k
      let sum := signed a (m <<< (e - place).toNat) + signed b (n <<< (f - place).toNat)
      let negative := if sum = 0 then a && b else decide (sum < 0)
      round negative (sum.natAbs <<< place.toNat) (1 <<< (-place).toNat)
  | _, _ => .nan

def sub (x y : Binary F) : Binary F := x.add y.neg

/-- The rounded product; of two infinite or undefined operands nothing is asked. -/
def mul : Binary F → Binary F → Binary F
  | .finite a m e _, .finite b n f _ =>
      round (a != b) ((m * n) <<< (e + f).toNat) (1 <<< (-(e + f)).toNat)
  | _, _ => .nan

def div : Binary F → Binary F → Binary F
  | .finite a m e _, .finite b n f _ =>
      if n = 0 then .nan
      else round (a != b) (m <<< (e - f).toNat) (n <<< (f - e).toNat)
  | _, _ => .nan

end Binary

end DataTree
