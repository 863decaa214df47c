namespace DataTree.Text

inductive NumeralFault
  | empty
  | badDigit
  | tooLarge
deriving DecidableEq

/-- The value of a digit; letters of either case follow nine. -/
def digit? (base : Nat) (c : Char) : Option Nat :=
  let value : Option Nat :=
    if '0' ≤ c ∧ c ≤ '9' then some (c.toNat - '0'.toNat)
    else if 'a' ≤ c ∧ c ≤ 'z' then some (c.toNat - 'a'.toNat + 10)
    else if 'A' ≤ c ∧ c ≤ 'Z' then some (c.toNat - 'A'.toNat + 10)
    else none
  value.filter (· < base)

def digitsFrom (base bound : Nat) (n : Nat) : List Char → Except NumeralFault Nat
  | [] => .ok n
  | c :: cs =>
    match digit? base c with
    | none => .error .badDigit
    | some d =>
      let m := base * n + d
      if m < bound then digitsFrom base bound m cs else .error .tooLarge

def unsigned (base bound : Nat) : List Char → Except NumeralFault Nat
  | [] => .error .empty
  | ['+'] => .error .badDigit
  | '+' :: cs => digitsFrom base bound 0 cs
  | cs => digitsFrom base bound 0 cs

def signed64? : List Char → Option Int
  | '-' :: c :: cs => (digitsFrom 10 0x8000000000000001 0 (c :: cs)).toOption.map fun n => -(n : Int)
  | cs => (unsigned 10 0x8000000000000000 cs).toOption.map fun n => (n : Int)

end DataTree.Text
