import DataTree.Decoder.Keyed
import DataTree.Decoder.Sequential
import DataTree.Decoder.Single
import DataTree.Dictionary
import DataTree.Encoder.Keyed
import DataTree.Encoder.Sequential
import DataTree.Encoder.Single
import DataTree.SortedMap

namespace DataTree

/-- The codes of codable types, where `X` has the codes of the user's own. -/
inductive Codable (X : Type)
  | prim (p : Primitive)
  | value
  | list (item : Codable X)
  | option (content : Codable X)
  | boxed (content : Codable X)
  | sortedMap (content : Codable X)
  | dictionary (content : Codable X)
  | custom (x : X)

namespace Codable

variable {X S U : Type} {D : X → Type} [Backend S]

/-- The type that a code stands for, where `D` gives the types of the user's own. -/
abbrev Carrier (D : X → Type) : Codable X → Type
  | prim p => p.Carrier
  | value => Value
  | list item => List (item.Carrier D)
  | option content => Option (content.Carrier D)
  | boxed content => content.Carrier D
  | sortedMap content => SortedMap (content.Carrier D)
  | dictionary content => Dictionary (content.Carrier D)
  | custom x => D x

/-- Map keys are names as they are, whatever the naming policy. -/
def decode (own : (x : X) → Decoding S U (D x)) :
    (t : Codable X) → Decoding S U (t.Carrier D)
  | prim p => do
    Decoding.single
    Decoding.Single.decodePrimitive p
  | value => do
    Decoding.single
    Decoding.Single.decodeTree
  | list item => do
    Decoding.sequential
    Decoding.Sequential.rest (item.decode own)
  | option content => do
    if ← Decoding.isNull then return none
    return some (← content.decode own)
  | boxed content => content.decode own
  | sortedMap content => do
    Decoding.keyed
    return .ofEntries (← Decoding.Keyed.entries (content.decode own) (← Decoding.Keyed.names))
  | dictionary content => do
    Decoding.keyed
    return .ofEntries (← Decoding.Keyed.entries (content.decode own) (← Decoding.Keyed.names))
  | custom x => own x

def encode (own : (x : X) → D x → Encoding S U Unit) :
    (t : Codable X) → t.Carrier D → Encoding S U Unit
  | prim p, x => do
    Encoding.single
    Encoding.Single.encodePrimitive p x
  | value, v => do
    Encoding.single
    Encoding.Single.encodeTree v
  | list item, xs => do
    Encoding.sequential
    Encoding.Sequential.encodeAll (xs.map (item.encode own))
  | option content, some x => content.encode own x
  | option _, none => do
    Encoding.single
    Encoding.Single.encodeNil
  | boxed content, x => content.encode own x
  | sortedMap content, map => do
    Encoding.keyed
    Encoding.Keyed.encodeEntries (map.entries.map fun (name, x) => (name, content.encode own x))
  | dictionary content, map => do
    Encoding.keyed
    Encoding.Keyed.encodeEntries (map.entries.map fun (name, x) => (name, content.encode own x))
  | custom x, y => own x y

def ofTree (own : (x : X) → Decoding S U (D x)) (naming : Naming) (user : U) (t : Codable X)
    (tree : S) : Except Error (t.Carrier D) × U :=
  Decoding.run naming user tree (t.decode own)

def toTree (own : (x : X) → D x → Encoding S U Unit) (naming : Naming) (user : U) (t : Codable X)
    (x : t.Carrier D) : Except Error S × U :=
  Encoding.run naming user (t.encode own x)

end Codable

end DataTree
