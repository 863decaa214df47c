import DataTree.Fields

namespace DataTree

inductive Tree (L : Type)
  | leaf (x : L)
  | array (items : List (Tree L))
  | object (fields : List (String × Tree L))

namespace Tree

variable {L : Type}

mutual

def height : Tree L → Nat
  | .leaf _ => 0
  | .array items => heightOfItems items + 1
  | .object fields => heightOfFields fields + 1

def heightOfItems : List (Tree L) → Nat
  | [] => 0
  | x :: xs => max x.height (heightOfItems xs)

def heightOfFields : List (String × Tree L) → Nat
  | [] => 0
  | (_, x) :: rest => max x.height (heightOfFields rest)

end

mutual

def Distinct : Tree L → Prop
  | .leaf _ => True
  | .array items => DistinctItems items
  | .object fields => Fields.Distinct fields ∧ DistinctFields fields

def DistinctItems : List (Tree L) → Prop
  | [] => True
  | x :: xs => x.Distinct ∧ DistinctItems xs

def DistinctFields : List (String × Tree L) → Prop
  | [] => True
  | (_, x) :: rest => x.Distinct ∧ DistinctFields rest

end

theorem height_le_heightOfItems {x : Tree L} {xs : List (Tree L)} (h : x ∈ xs) :
    x.height ≤ heightOfItems xs := by
  induction xs with
  | nil => cases h
  | cons y ys ih =>
      rcases List.mem_cons.1 h with rfl | h
      · exact Nat.le_max_left _ _
      · exact Nat.le_trans (ih h) (Nat.le_max_right _ _)

theorem height_le_heightOfFields {name : String} {x : Tree L} {fields : List (String × Tree L)}
    (h : List.lookup name fields = some x) : x.height ≤ heightOfFields fields := by
  induction fields with
  | nil => cases h
  | cons field rest ih =>
      obtain ⟨key, y⟩ := field
      rw [List.lookup_cons] at h
      split at h
      · cases h
        exact Nat.le_max_left _ _
      · exact Nat.le_trans (ih h) (Nat.le_max_right _ _)

end Tree

end DataTree
