import DataTree.RawEnum

namespace DataTree.Samples

def whole (t : IntType) (n : Int) (holds : t.Holds n := by decide) : Whole t := ⟨n, holds⟩

inductive Project
  | venice
  | annecy
  | quark

instance : RawEnum Project where
  primitive := .string
  cases := [.venice, .annecy, .quark]
  raw
    | .venice => "venice"
    | .annecy => "annecy"
    | .quark => "quark"

inductive Capital
  | kharkiv
  | kiev

instance : RawEnum Capital where
  primitive := .int .int64
  cases := [.kharkiv, .kiev]
  raw
    | .kharkiv => whole .int64 1
    | .kiev => whole .int64 2

inductive Level
  | low
  | high
  | top

instance : RawEnum Level where
  primitive := .int .nat64
  cases := [.low, .high, .top]
  raw
    | .low => whole .nat64 1
    | .high => whole .nat64 2
    | .top => whole .nat64 0x8000000000000000

inductive Tiny
  | zero
  | max

instance : RawEnum Tiny where
  primitive := .int .nat8
  cases := [.zero, .max]
  raw
    | .zero => whole .nat8 0
    | .max => whole .nat8 255

inductive Ratio
  | zero
  | half
  | two

instance : RawEnum Ratio where
  primitive := .double
  cases := [.zero, .half, .two]
  raw
    | .zero => .round false 0 1
    | .half => .round false 1 2
    | .two => .round false 2 1

inductive Fraction
  | half
  | third

instance : RawEnum Fraction where
  primitive := .single
  cases := [.half, .third]
  raw
    | .half => .round false 1 2
    | .third => .round false 333333 1000000

inductive Letter
  | a
  | eszett

instance : RawEnum Letter where
  primitive := .char
  cases := [.a, .eszett]
  raw
    | .a => 'a'
    | .eszett => 'ß'

inductive Switch
  | on

instance : RawEnum Switch where
  primitive := .bool
  cases := [.on]
  raw
    | .on => true

end DataTree.Samples
