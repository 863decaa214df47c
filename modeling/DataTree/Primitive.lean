import DataTree.Tree.Backend

namespace DataTree

inductive IntType
  | int8
  | int16
  | int32
  | int64
  | intSize
  | nat8
  | nat16
  | nat32
  | nat64
  | natSize
deriving DecidableEq

namespace IntType

def all : List IntType :=
  [int8, int16, int32, int64, intSize, nat8, nat16, nat32, nat64, natSize]

def name : IntType → String
  | int8 => "i8"
  | int16 => "i16"
  | int32 => "i32"
  | int64 => "i64"
  | intSize => "isize"
  | nat8 => "u8"
  | nat16 => "u16"
  | nat32 => "u32"
  | nat64 => "u64"
  | natSize => "usize"

def bits : IntType → Nat
  | int8 | nat8 => 8
  | int16 | nat16 => 16
  | int32 | nat32 => 32
  | int64 | intSize | nat64 | natSize => 64

def signed : IntType → Bool
  | int8 | int16 | int32 | int64 | intSize => true
  | _ => false

def bound (t : IntType) : Nat := 1 <<< (if t.signed then t.bits - 1 else t.bits)

def least (t : IntType) : Int := if t.signed then -t.bound else 0

def greatest (t : IntType) : Int := t.bound - 1

def Holds (t : IntType) (n : Int) : Prop := t.least ≤ n ∧ n ≤ t.greatest

instance (t : IntType) (n : Int) : Decidable (t.Holds n) := inferInstanceAs (Decidable (_ ∧ _))

end IntType

structure Whole (t : IntType) where
  val : Int
  holds : t.Holds val
deriving DecidableEq

def Whole.of? (t : IntType) (n : Int) : Option (Whole t) :=
  if h : t.Holds n then some ⟨n, h⟩ else none

/-- The whole number as an engine integer, which has 64 bits and a sign. -/
def int64? (n : Int) : Option Int64 :=
  if IntType.int64.Holds n then some (Int64.ofInt n) else none

/-- The types that one scalar leaf stores. -/
inductive Primitive
  | bool
  | int (t : IntType)
  | double
  | single
  | char
  | string
deriving DecidableEq

namespace Primitive

def all : List Primitive := [bool, double, single, char, string] ++ IntType.all.map int

abbrev Carrier : Primitive → Type
  | bool => Bool
  | int t => Whole t
  | double => Double
  | single => Single
  | char => Char
  | string => String

def name : Primitive → String
  | bool => "bool"
  | int t => t.name
  | double => "f64"
  | single => "f32"
  | char => "char"
  | string => "string"

def hint : Primitive → ScalarKind
  | bool => .bool
  | int _ => .int
  | double | single => .double
  | char | string => .string

/-- Equality as values of the type; floats compare as numbers. -/
def equals : (p : Primitive) → p.Carrier → p.Carrier → Bool
  | bool, a, b => decide (a = b)
  | int _, a, b => decide (a = b)
  | double, a, b => a.equals b
  | single, a, b => a.equals b
  | char, a, b => decide (a = b)
  | string, a, b => decide (a = b)

def mismatch (p : Primitive) (v : Value) : Fault := .typeMismatch p.name v.kind

def intOfScalar (t : IntType) (v : Value) : Except Fault (Whole t) :=
  let fit (n : Int) (text : String) : Except Fault (Whole t) :=
    match Whole.of? t n with
    | some n => .ok n
    | none => .error (.numberOutOfRange text t.name)
  match v with
  | Value.int i => fit i.toInt (toString i.toInt)
  | Value.double x =>
    match x.toInt? with
    | some n => fit n (Layout.plain.text x)
    | none => .error ((Primitive.int t).mismatch v)
  | _ => .error ((Primitive.int t).mismatch v)

def doubleOfScalar : Value → Except Fault Double
  | Value.double x => .ok x
  | Value.int i =>
    match Binary.ofInt? i.toInt with
    | some x => .ok x
    | none => .error (.numberOutOfRange (toString i.toInt) double.name)
  | v => .error (double.mismatch v)

def singleOfScalar : Value → Except Fault Single
  | Value.double x =>
    match x.narrow? with
    | some y => .ok y
    | none => .error (.numberOutOfRange (Layout.plain.text x) single.name)
  | Value.int i =>
    match Binary.ofInt? i.toInt with
    | some x => .ok x
    | none => .error (.numberOutOfRange (toString i.toInt) single.name)
  | v => .error (single.mismatch v)

def charOfScalar (v : Value) : Except Fault Char :=
  match v with
  | Value.string s =>
    match s.toList with
    | [c] => .ok c
    | _ => .error (char.mismatch v)
  | _ => .error (char.mismatch v)

def ofScalar : (p : Primitive) → Value → Except Fault p.Carrier
  | bool, Value.bool b => .ok b
  | bool, v => .error (bool.mismatch v)
  | int t, v => intOfScalar t v
  | double, v => doubleOfScalar v
  | single, v => singleOfScalar v
  | char, v => charOfScalar v
  | string, Value.string s => .ok s
  | string, v => .error (string.mismatch v)

def toScalar : (p : Primitive) → p.Carrier → Except Fault Value
  | bool, b => .ok (Value.bool b)
  | int _, n =>
    match int64? n.val with
    | some i => .ok (Value.int i)
    | none => .error (.numberOutOfRange (toString n.val) "int")
  | double, x => .ok (Value.double x)
  | single, x => .ok (Value.double x.convert)
  | char, c => .ok (Value.string (String.ofList [c]))
  | string, s => .ok (Value.string s)

end Primitive

end DataTree
