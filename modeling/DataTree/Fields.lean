namespace DataTree.Fields

variable {α : Type}

def names (fields : List (String × α)) : List String := fields.map (·.1)

def Distinct (fields : List (String × α)) : Prop := (names fields).Nodup

/-- Replaces the field in its place, or appends it. -/
def put (name : String) (x : α) : List (String × α) → List (String × α)
  | [] => [(name, x)]
  | (key, y) :: rest => if key = name then (key, x) :: rest else (key, y) :: put name x rest

/-- The other fields keep their order. -/
def erase (name : String) (fields : List (String × α)) : List (String × α) :=
  fields.filter (·.1 ≠ name)

def putAll (news : List (String × α)) (fields : List (String × α)) : List (String × α) :=
  news.foldl (fun fields (name, x) => put name x fields) fields

/-- Distinct fields from any pairs: of a repeated name the last value, at the first place. -/
def ofPairs (pairs : List (String × α)) : List (String × α) := putAll pairs []

theorem mem_names_put {name key : String} {x : α} {fields : List (String × α)} :
    key ∈ names (put name x fields) ↔ key = name ∨ key ∈ names fields := by
  induction fields with
  | nil => simp [put, names]
  | cons field rest ih =>
      obtain ⟨first, y⟩ := field
      by_cases h : first = name
      · simp_all [put, names]
      · simp_all only [put, names, if_neg, not_false_eq_true, List.map_cons, List.mem_cons]
        grind

theorem distinct_put (name : String) (x : α) {fields : List (String × α)}
    (h : Distinct fields) : Distinct (put name x fields) := by
  induction fields with
  | nil => simp [put, Distinct, names]
  | cons field rest ih =>
      obtain ⟨first, y⟩ := field
      obtain ⟨fresh, tail⟩ := List.nodup_cons.1 h
      by_cases hn : first = name
      · rw [put, if_pos hn]
        exact List.nodup_cons.2 ⟨fresh, tail⟩
      · rw [put, if_neg hn]
        exact List.nodup_cons.2 ⟨fun hm => (mem_names_put.1 hm).elim hn fresh, ih tail⟩

end DataTree.Fields
