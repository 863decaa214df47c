namespace DataTree.Utf8

structure Fault where
  /-- The octets before the error, all of them part of characters. -/
  index : Nat
  /-- The length of the invalid sequence; none where the text ends too early. -/
  length : Option Nat
deriving DecidableEq

def Fault.message (f : Fault) : String :=
  match f.length with
  | some n =>
    "invalid utf-8 sequence of " ++ toString n ++ " bytes from index " ++ toString f.index
  | none => "incomplete utf-8 byte sequence from index " ++ toString f.index

/-- How many octets follow a leading octet, and between which bounds the first of them lies: the
bounds exclude overlong forms, surrogates and code points that are none. -/
def lead (b : UInt8) : Option (Nat × UInt8 × UInt8) :=
  if b < 0xC2 then none
  else if b < 0xE0 then some (1, 0x80, 0xBF)
  else if b = 0xE0 then some (2, 0xA0, 0xBF)
  else if b = 0xED then some (2, 0x80, 0x9F)
  else if b < 0xF0 then some (2, 0x80, 0xBF)
  else if b = 0xF0 then some (3, 0x90, 0xBF)
  else if b < 0xF4 then some (3, 0x80, 0xBF)
  else if b = 0xF4 then some (3, 0x80, 0x8F)
  else none

/-- Reads the `n` octets that follow. The error is the length of the sequence so far. -/
def follow (lower upper : UInt8) (code seen : Nat) : Nat → List UInt8 → Except (Option Nat) Char
  | 0, _ => .ok (Char.ofNat code)
  | _ + 1, [] => .error none
  | n + 1, b :: rest =>
    if lower ≤ b && b ≤ upper then
      follow 0x80 0xBF (code * 64 + (b.toNat - 0x80)) (seen + 1) n rest
    else .error (some seen)

/-- The character that starts with octet `b`, and how many octets it takes after it. -/
def first (b : UInt8) (rest : List UInt8) : Except (Option Nat) (Char × Nat) :=
  if b < 0x80 then .ok (Char.ofNat b.toNat, 0)
  else match lead b with
    | none => .error (some 1)
    | some (n, lower, upper) =>
      let bits := b.toNat % (1 <<< (6 - n))
      (follow lower upper bits 1 n rest).map fun c => (c, n)

def decodeFrom (index : Nat) : List UInt8 → Except Fault (List Char)
  | [] => .ok []
  | b :: rest =>
    match first b rest with
    | .error length => .error ⟨index, length⟩
    | .ok (c, n) => (decodeFrom (index + n + 1) (rest.drop n)).map (c :: ·)
termination_by octets => octets.length
decreasing_by simp only [List.length_drop, List.length_cons]; omega

def decode (octets : List UInt8) : Except Fault String := (decodeFrom 0 octets).map String.ofList

def encode (s : String) : List UInt8 := s.toList.flatMap String.utf8EncodeChar

end DataTree.Utf8
