import DataTree.Fields

namespace DataTree

structure Dictionary (α : Type) where
  entries : List (String × α)
  distinct : Fields.Distinct entries

namespace Dictionary

variable {α : Type}

def empty : Dictionary α := ⟨[], List.Pairwise.nil⟩

def insert (key : String) (x : α) (map : Dictionary α) : Dictionary α :=
  ⟨Fields.put key x map.entries, Fields.distinct_put key x map.distinct⟩

/-- Of entries with the same key the last one counts, at the place of the first. -/
def ofEntries (entries : List (String × α)) : Dictionary α :=
  entries.foldl (fun map (key, x) => map.insert key x) empty

end Dictionary

end DataTree
