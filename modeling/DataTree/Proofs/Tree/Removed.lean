import DataTree.Proofs.Tree.Written

namespace DataTree.Tree

open Backend (remove)

variable {L : Type} [Leaf L]

theorem remove_index (i : Nat) (rest : Path) (t : Tree L) :
    remove (.index i :: rest) t = .error ⟨.expectedObject (Backend.kind t), [.index i]⟩ := by
  cases rest <;> simp only [remove]

theorem remove_mismatch {t : Tree L} (h : Backend.kind t ≠ .object) (name : String) (rest : Path) :
    remove (.name name :: rest) t = .error ⟨.expectedObject (Backend.kind t), [.name name]⟩ := by
  cases rest with
  | nil =>
      cases t with
      | object fields => exact absurd rfl h
      | _ => rfl
  | cons next rest =>
      cases hk : Backend.kind t with
      | object => exact absurd hk h
      | _ => simp only [remove, hk]

theorem remove_last (name : String) (fields : List (String × Tree L)) :
    remove [.name name] (Tree.object fields) = .ok (.object (Fields.erase name fields)) := rfl

theorem remove_missing {fields : List (String × Tree L)} {name : String}
    (h : List.lookup name fields = none) (next : Key) (rest : Path) :
    remove (.name name :: next :: rest) (Tree.object fields) =
      .error ⟨.keyNotFound name, [.name name]⟩ := by
  have hk : Backend.kind (Tree.object fields) = .object := rfl
  simp only [remove, hk, fieldSlot_object, h, Option.map_none]

theorem remove_field {fields : List (String × Tree L)} {name : String} {a : Tree L}
    (h : List.lookup name fields = some a) (next : Key) (rest : Path) :
    remove (.name name :: next :: rest) (Tree.object fields) =
      match remove (next :: rest) a with
      | .ok b => .ok (Tree.object (Fields.put name b fields))
      | .error e => .error (e.within [.name name]) := by
  have hk : Backend.kind (Tree.object fields) = .object := rfl
  simp only [remove, hk, fieldSlot_object, h, Option.map_some]
  cases remove (next :: rest) a <;> rfl

theorem child_object_put {fields : List (String × Tree L)} {key : String} {a : Tree L} {first : Key}
    (h : first ≠ .name key) : Backend.child (Tree.object (Fields.put key a fields)) first =
      Backend.child (Tree.object fields) first := by
  cases first with
  | index i => rfl
  | name other =>
      have hne : other ≠ key := fun he => h (congrArg Key.name he)
      exact congrArg Except.ok (Fields.lookup_put_of_ne hne a fields)

theorem child_object_erase {fields : List (String × Tree L)} {name : String} {first : Key}
    (h : first ≠ .name name) : Backend.child (Tree.object (Fields.erase name fields)) first =
      Backend.child (Tree.object fields) first := by
  cases first with
  | index i => rfl
  | name other =>
      have hne : other ≠ name := fun he => h (congrArg Key.name he)
      exact congrArg Except.ok (Fields.lookup_erase_of_ne hne fields)

/-- A tree after the field at a path of it was removed. All keys lead through existing fields, and
what the empty path leaves is null. -/
inductive Removed : Path → Tree L → Tree L → Prop
  | root {t : Tree L} : Removed [] t (.leaf Leaf.null)
  | last {fields : List (String × Tree L)} {name : String} :
      Removed [.name name] (.object fields) (.object (Fields.erase name fields))
  | field {fields : List (String × Tree L)} {name : String} {next : Key} {rest : Path}
      {a b : Tree L} :
      List.lookup name fields = some a → Removed (next :: rest) a b →
      Removed (.name name :: next :: rest) (.object fields) (.object (Fields.put name b fields))

theorem removed_of_remove {path : Path} {t t' : Tree L} (h : remove path t = .ok t') :
    Removed path t t' := by
  induction path generalizing t t' with
  | nil =>
      cases h
      exact .root
  | cons key rest ih =>
      cases key with
      | index i =>
          rw [remove_index] at h
          cases h
      | name name =>
          by_cases ht : Backend.kind t = .object
          · obtain ⟨fields, rfl⟩ := kind_eq_object.1 ht
            cases rest with
            | nil =>
                cases h
                exact .last
            | cons next rest =>
                cases hf : List.lookup name fields with
                | none =>
                    rw [remove_missing hf] at h
                    cases h
                | some a =>
                    rw [remove_field hf] at h
                    split at h
                    next b hb =>
                      cases h
                      exact .field hf (ih hb)
                    next => cases h
          · rw [remove_mismatch ht] at h
            cases h

theorem Removed.hereditary {q : Tree L → Prop} (hq : Hereditary q) {path : Path} {t t' : Tree L}
    (r : Removed path t t') (hn : q (.leaf Leaf.null)) (ht : q t) : q t' := by
  induction r with
  | root => exact hn
  | last => exact hq.erase ht
  | field hf _ ih => exact hq.put ht (ih (hq.find ht hf))

end DataTree.Tree
