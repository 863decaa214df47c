import DataTree.KeySpace

namespace DataTree.Samples

inductive DemoKey
  | int
  | nextBigThing
  | plain
  | snakeName
  | empty

instance : ClosedKeySpace DemoKey where
  all := [.int, .nextBigThing, .plain, .snakeName, .empty]
  storedName
    | .int => "int"
    | .nextBigThing => "next-big-thing"
    | .plain => "Plain"
    | .snakeName => "snake_name"
    | .empty => ""

end DataTree.Samples
