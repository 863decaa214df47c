import DataTree.Fault

namespace DataTree

inductive Container
  | keyed
  | sequential
  | single

namespace Container

def name : Container → String
  | keyed => "keyed"
  | sequential => "sequential"
  | single => "single value"

/-- The container was asked for at a level that handed one out before. -/
def refused (c : Container) : Fault :=
  .dataCorrupted ("a container was already requested here, cannot open a " ++ c.name ++ " one")

def closed (c : Container) : Fault :=
  .dataCorrupted ("the " ++ c.name ++ " container is no longer open")

end Container

/-- A container inside another one: that of a field or of the next item. -/
inductive Nested
  | keyedField (key : String)
  | listField (key : String)
  | keyedItem
  | listItem

def Nested.container : Nested → Container
  | keyedField _ | keyedItem => .keyed
  | listField _ | listItem => .sequential

end DataTree
