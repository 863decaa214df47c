import DataTree.Primitive

namespace DataTree

class ToValue (α : Type) where
  toTree : α → Value

namespace ToValue

variable {α : Type}

instance : ToValue Value := ⟨id⟩

instance : ToValue Bool := ⟨Value.bool⟩

instance : ToValue String := ⟨Value.string⟩

instance : ToValue Double := ⟨Value.double⟩

instance : ToValue Single := ⟨fun x => Value.double x.convert⟩

def ofWhole {t : IntType} (n : Whole t) : Value := Value.int (Int64.ofInt n.val)

instance : ToValue (Whole .int8) := ⟨ofWhole⟩

instance : ToValue (Whole .int16) := ⟨ofWhole⟩

instance : ToValue (Whole .int32) := ⟨ofWhole⟩

instance : ToValue (Whole .int64) := ⟨ofWhole⟩

instance : ToValue (Whole .nat8) := ⟨ofWhole⟩

instance : ToValue (Whole .nat16) := ⟨ofWhole⟩

instance : ToValue (Whole .nat32) := ⟨ofWhole⟩

instance [ToValue α] : ToValue (List α) := ⟨fun xs => .array (xs.map toTree)⟩

instance [ToValue α] : ToValue (Option α) := ⟨fun x => (x.map toTree).getD Value.null⟩

end ToValue

/-- An object from pairs; a name that comes again replaces the value in its place. -/
def Value.ofPairs (pairs : List (String × Value)) : Value := .object (Fields.ofPairs pairs)

end DataTree
