import DataTree.Fields

namespace DataTree

def Fields.Sorted {α : Type} (fields : List (String × α)) : Prop :=
  fields.Pairwise fun a b => a.1 < b.1

structure SortedMap (α : Type) where
  entries : List (String × α)
  sorted : Fields.Sorted entries

namespace SortedMap

variable {α : Type}

def insertEntry (key : String) (x : α) : List (String × α) → List (String × α)
  | [] => [(key, x)]
  | (other, y) :: rest =>
    if key < other then (key, x) :: (other, y) :: rest
    else if other = key then (key, x) :: rest
    else (other, y) :: insertEntry key x rest

theorem mem_insertEntry {key : String} {x : α} {entry : String × α} {entries : List (String × α)}
    (h : entry ∈ insertEntry key x entries) : entry = (key, x) ∨ entry ∈ entries := by
  induction entries with
  | nil => simpa [insertEntry] using h
  | cons first rest ih =>
      obtain ⟨other, y⟩ := first
      simp only [insertEntry] at h
      grind

theorem sorted_insertEntry (key : String) (x : α) {entries : List (String × α)}
    (h : Fields.Sorted entries) : Fields.Sorted (insertEntry key x entries) := by
  induction entries with
  | nil => exact List.pairwise_singleton _ _
  | cons first rest ih =>
      obtain ⟨other, y⟩ := first
      obtain ⟨below, tail⟩ := List.pairwise_cons.1 h
      simp only [insertEntry]
      split
      next before =>
        exact h.cons fun entry hentry => (List.mem_cons.1 hentry).elim
          (fun first => first ▸ before)
          fun later => String.lt_trans before (below entry later)
      next notBefore =>
        split
        next same => exact tail.cons fun entry hentry => same ▸ below entry hentry
        next different =>
          refine (ih tail).cons fun entry hentry => (mem_insertEntry hentry).elim (fun here => ?_)
            (below entry)
          subst here
          exact Std.lt_of_le_of_ne (String.not_lt.1 notBefore) different

def empty : SortedMap α := ⟨[], List.Pairwise.nil⟩

def insert (key : String) (x : α) (map : SortedMap α) : SortedMap α :=
  ⟨insertEntry key x map.entries, sorted_insertEntry key x map.sorted⟩

/-- Of entries with the same key the last one counts. -/
def ofEntries (entries : List (String × α)) : SortedMap α :=
  entries.foldl (fun map (key, x) => map.insert key x) empty

end SortedMap

end DataTree
