import DataTree.Mapping.Record
import DataTree.Samples.Enums

namespace DataTree.Samples

variable {S : Type} [Backend S]

abbrev Int64Number := Whole .int64

def readInt : Reader S Int64Number := .prim (.int .int64)

def writeInt : Writer S Int64Number := .prim (.int .int64)

structure Primitives where
  int : Int64Number
  string : String
  double : Double
  bool : Bool

instance : Mappable Primitives where
  read source := do
    let int ← readInt.require ["int"] source
    let string ← (Reader.prim .string).require ["string"] source
    let double ← (Reader.prim .double).require ["double"] source
    let bool ← (Reader.prim .bool).require ["bool"] source
    return ⟨int, string, double, bool⟩
  store x := do
    writeInt.store ["int"] x.int
    (Writer.prim .string).store ["string"] x.string
    (Writer.prim .double).store ["double"] x.double
    (Writer.prim .bool).store ["bool"] x.bool

structure Nest where
  int : Int64Number

instance : Mappable Nest where
  read source := return ⟨← readInt.require ["int"] source⟩
  store x := writeInt.store ["int"] x.int

structure Record where
  id : Option (Whole .nat32)
  string : String
  ints : List Int64Number
  nest : Nest

instance : Mappable Record where
  read source := do
    let id ← (Reader.prim (.int .nat32)).optional ["id"] source
    let string ← (Reader.prim .string).require ["string"] source
    let ints ← readInt.list.require ["ints"] source
    let nest ← Mappable.reader.require ["nest"] source
    return ⟨id, string, ints, nest⟩
  store x := do
    (Writer.prim (.int .nat32)).storeOptional ["id"] x.id
    (Writer.prim .string).store ["string"] x.string
    writeInt.list.store ["ints"] x.ints
    Mappable.writer.store ["nest"] x.nest

structure Nests where
  nests : List Nest

instance : Mappable Nests where
  read source := return ⟨← Mappable.reader.list.require ["nests"] source⟩
  store x := Mappable.writer.list.store ["nests"] x.nests

structure FlatNests where
  nests : List Nest

instance : Mappable FlatNests where
  read source := return ⟨← Mappable.reader.list.require ([] : Path) source⟩
  store x := Mappable.writer.list.store ([] : Path) x.nests

structure Second where
  second : Value

instance : Mappable Second where
  read source := return ⟨← Reader.value.require [1, 0] source⟩
  store x := Writer.value.store [1, 0] x.second

structure HiddenFar where
  hiddenFar : String

def HiddenFar.path : List String := ["deeper", "stillDeeper", "close", "gotcha"]

instance : Mappable HiddenFar where
  read source := return ⟨← (Reader.prim .string).require HiddenFar.path source⟩
  store x := (Writer.prim .string).store HiddenFar.path x.hiddenFar

structure Enums where
  project : Project
  city : Option Capital
  projects : List Project
  capitals : List Capital

instance : Mappable Enums where
  read source := do
    let project ← Reader.raw.require ["next-big-thing"] source
    let city ← Reader.raw.optional ["city"] source
    let projects ← Reader.raw.list.require ["zewo-projects"] source
    let capitals ← Reader.raw.list.require ["ukraine-capitals"] source
    return ⟨project, city, projects, capitals⟩
  store x := do
    Writer.raw.store ["next-big-thing"] x.project
    Writer.raw.storeOptional ["city"] x.city
    Writer.raw.list.store ["zewo-projects"] x.projects
    Writer.raw.list.store ["ukraine-capitals"] x.capitals

/-- A choice that a field of its own names. -/
inductive Action
  | fire (rate : Int64Number)
  | takeAim (interval : Double)

/-- Nothing is written of an action that cannot be. -/
instance : Mappable Action where
  read source := do
    match ← (Reader.prim .string).require ["main"] source with
    | "fire" => return .fire (← readInt.require ["rate"] source)
    | "take-aim" => return .takeAim (← (Reader.prim .double).require ["time-interval"] source)
    | other => .error (.custom ("unknown action `" ++ other ++ "`"))
  store x := do
    match x with
    | .fire rate =>
      if rate.val < 0 then throw (.custom "negative rate")
      (Writer.prim .string).store ["main"] "fire"
      writeInt.store ["rate"] rate
    | .takeAim interval =>
      (Writer.prim .string).store ["main"] "take-aim"
      (Writer.prim .double).store ["time-interval"] interval

end DataTree.Samples
