namespace DataTree

/-- The scalar kinds a leaf can have, or be asked for. -/
inductive ScalarKind
  | bool
  | int
  | double
  | string
deriving DecidableEq

def ScalarKind.all : List ScalarKind := [.bool, .int, .double, .string]

def ScalarKind.name : ScalarKind → String
  | .bool => "bool"
  | .int => "int"
  | .double => "double"
  | .string => "string"

inductive Kind
  | null
  | scalar (kind : ScalarKind)
  | array
  | object
deriving DecidableEq

def Kind.all : List Kind := [.null, .array, .object] ++ ScalarKind.all.map .scalar

def Kind.name : Kind → String
  | .null => "null"
  | .scalar kind => kind.name
  | .array => "array"
  | .object => "object"

end DataTree
