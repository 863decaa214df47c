import DataTree.Proofs.Outcome
import DataTree.Proofs.Tree.Written
import Mathlib.Data.List.Forall2

namespace DataTree

open Backend (insertField)

section Building

variable {S α : Type} [Backend S]

/-- Makes the content of a field and inserts it; a failure carries the name of the field. -/
def insertMade (f : α → Except Error S) (name : String) (x : α) (node : S) : Except Error S := do
  let y ← (f x).mapError (Error.within [.name name])
  match insertField name y node with
  | .ok () node => .ok node
  | .error fault _ => .error ⟨fault, [.name name]⟩

theorem insertMade_of_ok {f : α → Except Error S} {name : String} {x : α} {y node node' : S}
    (hf : f x = .ok y) (h : insertField name y node = .ok () node') :
    insertMade f name x node = .ok node' := by
  rw [insertMade, hf]
  simp only [Except.mapError, bind, Except.bind, h]

theorem insertMade_of_refused {f : α → Except Error S} {name : String} {x : α} {y node node' : S}
    {fault : Fault} (hf : f x = .ok y) (h : insertField name y node = .error fault node') :
    insertMade f name x node = .error ⟨fault, [.name name]⟩ := by
  rw [insertMade, hf]
  simp only [Except.mapError, bind, Except.bind, h]

theorem insertMade_of_error {f : α → Except Error S} {name : String} {x : α} {e : Error}
    (hf : f x = .error e) (node : S) :
    insertMade f name x node = .error (e.within [.name name]) := by
  rw [insertMade, hf]
  rfl

def insertEach (f : α → Except Error S) : List (String × α) → S → Except Error S
  | [], node => .ok node
  | (name, x) :: rest, node => do insertEach f rest (← insertMade f name x node)

theorem ofItems_eq_eachItem (index : Nat) (items : List Value) :
    (ofItems index items : Except Error (List S)) = eachItem ofValue index items := by
  induction items generalizing index with
  | nil => rfl
  | cons x xs ih => rw [ofItems, eachItem, ih]

theorem ofFields_eq_insertEach (fields : List (String × Value)) (node : S) :
    ofFields fields node = insertEach ofValue fields node := by
  induction fields generalizing node with
  | nil => rfl
  | cons field rest ih =>
      obtain ⟨name, x⟩ := field
      rw [ofFields, insertEach]
      cases hmade : (ofValue x : Except Error S) with
      | error e =>
          rw [insertMade_of_error hmade]
          rfl
      | ok y =>
          cases hinsert : insertField name y node with
          | ok _ node' =>
              rw [insertMade_of_ok hmade hinsert]
              simp only [Except.mapError, bind, Except.bind, hinsert, ih]
          | error fault node' =>
              rw [insertMade_of_refused hmade hinsert]
              simp only [Except.mapError, bind, Except.bind, hinsert]

end Building

namespace Fields

variable {α β : Type}

/-- Fields of the same names in the same order, with contents that are related. -/
def Pointwise (r : α → β → Prop) (xs : List (String × α)) (ys : List (String × β)) : Prop :=
  List.Forall₂ (fun x y => x.1 = y.1 ∧ r x.2 y.2) xs ys

namespace Pointwise

variable {r : α → β → Prop} {xs : List (String × α)} {ys : List (String × β)}

theorem imp {s : α → β → Prop} (h : Pointwise r xs ys)
    (hrs : ∀ field ∈ xs, ∀ y, r field.2 y → s field.2 y) : Pointwise s xs ys := by
  induction h with
  | nil => exact .nil
  | @cons x y xs ys hxy _ ih =>
      exact .cons ⟨hxy.1, hrs x List.mem_cons_self _ hxy.2⟩
        (ih fun field hm => hrs field (List.mem_cons_of_mem _ hm))

theorem names_eq (h : Pointwise r xs ys) : names ys = names xs := by
  induction h with
  | nil => rfl
  | cons hxy _ ih => rw [names_cons, names_cons, ih, hxy.1]

theorem lookup (h : Pointwise r xs ys) (hd : Distinct xs) {field : String × α} (hm : field ∈ xs) :
    ∃ y, List.lookup field.1 ys = some y ∧ r field.2 y := by
  induction h with
  | nil => cases hm
  | @cons x y xs ys hxy _ ih =>
      obtain ⟨hfresh, hrest⟩ := distinct_cons.1 hd
      rw [lookup_cons]
      rcases List.mem_cons.1 hm with rfl | hm
      · exact ⟨y.2, if_pos hxy.1.symm, hxy.2⟩
      · have hne : y.1 ≠ field.1 := fun he =>
          hfresh (hxy.1 ▸ he ▸ List.mem_map_of_mem hm)
        rw [if_neg hne]
        exact ih hrest hm

end Pointwise

end Fields

theorem insertEach_of_pointwise {S α β : Type} [Backend S] {f : α → Except Error S}
    {g : β → Except Error S} {xs : List (String × α)} {ys : List (String × β)}
    (h : Fields.Pointwise (fun x y => g y = f x) xs ys) (node : S) :
    insertEach g ys node = insertEach f xs node := by
  induction h generalizing node with
  | nil => rfl
  | @cons x y xs ys hxy _ ih =>
      have hmade : insertMade g y.1 y.2 node = insertMade f x.1 x.2 node := by
        rw [insertMade, insertMade, hxy.1, hxy.2]
      rw [insertEach, insertEach, hmade, funext ih]

/-- Where a field of a fresh name comes to stand behind the others, fields of distinct names do so
one after the other. -/
theorem insertEach_appended {S α : Type} [Backend S] {f : α → Except Error S}
    {build : List (String × S) → S}
    (hbuild : ∀ {done name}, name ∉ Fields.names done → ∀ y,
      insertField name y (build done) = .ok () (build (done ++ [(name, y)])))
    {pairs : List (String × α)} (hd : Fields.Distinct pairs) {done : List (String × S)}
    (hfresh : ∀ name ∈ Fields.names pairs, name ∉ Fields.names done) {node : S}
    (h : insertEach f pairs (build done) = .ok node) :
    ∃ fields, node = build (done ++ fields) ∧
      Fields.Pointwise (fun x y => f x = .ok y) pairs fields := by
  induction pairs generalizing done with
  | nil =>
      cases h
      exact ⟨[], by rw [List.append_nil], .nil⟩
  | cons pair rest ih =>
      obtain ⟨name, x⟩ := pair
      obtain ⟨hname, hrest⟩ := Fields.distinct_cons.1 hd
      obtain ⟨node, hmade, h⟩ := bind_eq_ok.1 h
      obtain ⟨y, hy, hinsert⟩ := bind_eq_ok.1 hmade
      rw [hbuild (hfresh name List.mem_cons_self)] at hinsert
      cases hinsert
      have hnext : ∀ other ∈ Fields.names rest, other ∉ Fields.names (done ++ [(name, y)]) := by
        intro other ho hm
        rw [Fields.names_append, List.mem_append] at hm
        rcases hm with hm | hm
        · exact hfresh other (List.mem_cons_of_mem _ ho) hm
        · obtain rfl : other = name := List.mem_singleton.1 hm
          exact hname ho
      obtain ⟨fields, rfl, hfields⟩ := ih hrest hnext h
      exact ⟨(name, y) :: fields, by rw [List.append_assoc, List.singleton_append],
        .cons ⟨rfl, mapError_eq_ok.1 hy⟩ hfields⟩

namespace Tree

variable {L α : Type} [Leaf L] {f : α → Except Error (Tree L)}

theorem insertEach_fresh {pairs : List (String × α)} (hd : Fields.Distinct pairs) {t : Tree L}
    (h : insertEach f pairs Backend.object = .ok t) :
    ∃ fields, t = .object fields ∧ Fields.Pointwise (fun x y => f x = .ok y) pairs fields :=
  insertEach_appended
    (fun hname y => by rw [insertField_object, Fields.put_of_notMem hname]) hd
    (by simp [Fields.names]) h

end Tree

end DataTree
