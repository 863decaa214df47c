import DataTree.Samples.Records

namespace DataTree.Samples

inductive Fruit
  | apple
  | peach
  | orange

def Fruit.key : Fruit → String
  | apple => "apple-int"
  | peach => "peach-int"
  | orange => "orange-int"

structure FruitNest where
  int : Int64Number

instance : ContextMappable Fruit FruitNest where
  read mapper := return ⟨← readInt.require [mapper.context.key] mapper.tree⟩
  store x := do
    let mapper ← get
    Contextual.onTree (writeInt.store [mapper.context.key] x.int)

structure MixedFruit where
  nest : FruitNest
  nests : List FruitNest

instance : Mappable MixedFruit where
  read source := do
    let nest ← ContextMappable.reader.require ["nest"] Fruit.peach source
    let nests ← ContextMappable.reader.list.require ["nests"] Fruit.orange source
    return ⟨nest, nests⟩
  store x := do
    ContextMappable.writer.store ["nest"] Fruit.peach x.nest
    ContextMappable.writer.list.store ["nests"] Fruit.orange x.nests

structure Basket where
  nest : FruitNest
  nests : List FruitNest
  spare : Option FruitNest

/-- A spare that is missing is written as null. -/
instance : ContextMappable Fruit Basket where
  read mapper := do
    let nest ← ContextMappable.reader.requireIn ["nest"] mapper
    let nests ← ContextMappable.reader.list.requireIn ["nests"] mapper
    let spare ← ContextMappable.reader.optionalIn ["spare"] mapper
    return ⟨nest, nests, spare⟩
  store x := do
    ContextMappable.writer.storeIn ["nest"] x.nest
    ContextMappable.writer.list.storeIn ["nests"] x.nests
    ContextMappable.writer.option.storeIn ["spare"] x.spare

inductive Epoch
  | unix
  | reference

def Epoch.offset : Epoch → Double
  | unix => .ofInt 0
  | reference => .ofInt 978307200

/-- Seconds since the first epoch, stored as seconds since the epoch of the context. -/
structure Timestamp where
  seconds : Double

instance : ContextMappable Epoch Timestamp where
  read mapper := do
    let stored ← (Reader.prim .double).require ([] : Path) mapper.tree
    return ⟨stored.add mapper.context.offset⟩
  store x := do
    let mapper ← get
    Contextual.onTree <|
      (Writer.prim .double).store ([] : Path) (x.seconds.sub mapper.context.offset)

end DataTree.Samples
