import DataTree.Proofs.Backend.Atomic
import DataTree.Proofs.Tree.Through

namespace DataTree

theorem Path.names_or_index (path : Path) : (∃ names : List String, path = names.map .name) ∨
    ∃ (names : List String) (i : Nat) (back : Path),
      path = names.map .name ++ .index i :: back := by
  induction path with
  | nil => exact .inl ⟨[], rfl⟩
  | cons key rest ih =>
      cases key with
      | index i => exact .inr ⟨[], i, rest, rfl⟩
      | name name =>
          rcases ih with ⟨names, rfl⟩ | ⟨names, i, back, rfl⟩
          · exact .inl ⟨name :: names, rfl⟩
          · exact .inr ⟨name :: names, i, back, rfl⟩

namespace Tree

open Backend (setAt emptyFor)

variable {L : Type} [Leaf L] {t x : Tree L} {path : Path} {merge : Bool}

/-- The path leads to an object, asks it for a field that is missing, and has only names behind
that. -/
def Creates (t : Tree L) (path : Path) : Prop :=
  ∃ (front : Path) (fields : List (String × Tree L)) (name : String) (names : List String),
    path = front ++ (name :: names).map .name ∧
    Backend.get t front = .ok (some (.object fields)) ∧ name ∉ Fields.names fields

/-- The first key of a path that cannot be followed, as an error: a name at a node that is no
object, an index at a node that is no array or an array without the item, or an index behind a field
that is missing, where the array would have to be made. -/
inductive Stops (t : Tree L) : Path → Error → Prop
  | name {front back : Path} {name : String} {w : Tree L} :
      Backend.get t front = .ok (some w) → Backend.kind w ≠ .object →
      Stops t (front ++ .name name :: back)
        ⟨.typeMismatch "object" (Backend.kind w), front ++ [.name name]⟩
  | index {front back : Path} {i : Nat} {w : Tree L} :
      Backend.get t front = .ok (some w) → Backend.kind w ≠ .array →
      Stops t (front ++ .index i :: back)
        ⟨.typeMismatch "array" (Backend.kind w), front ++ [.index i]⟩
  | range {front back : Path} {i : Nat} {items : List (Tree L)} :
      Backend.get t front = .ok (some (.array items)) → items.length ≤ i →
      Stops t (front ++ .index i :: back) ⟨.outOfBounds i items.length, front ++ [.index i]⟩
  | made {front back : Path} {i : Nat} :
      Creates t front →
      Stops t (front ++ .index i :: back) ⟨.outOfBounds i 0, front ++ [.index i]⟩

theorem arrives_or_stops (t : Tree L) (path : Path) :
    ((∃ w, Backend.get t path = .ok (some w)) ∨ Creates t path) ∨ ∃ e, Stops t path e := by
  rcases Backend.exists_furthest t path with hfound | ⟨front, key, back, w, rfl, hw, hchild⟩
  · exact .inl (.inl hfound)
  cases key with
  | index i =>
      by_cases hk : Backend.kind w = .array
      · obtain ⟨items, rfl⟩ := kind_eq_array.1 hk
        have hlength : items.length ≤ i :=
          Nat.not_lt.1 fun hlt => hchild _ (congrArg Except.ok (List.getElem?_eq_getElem hlt))
        exact .inr ⟨_, .range hw hlength⟩
      · exact .inr ⟨_, .index hw hk⟩
  | name name =>
      by_cases hk : Backend.kind w = .object
      · obtain ⟨fields, rfl⟩ := kind_eq_object.1 hk
        have hname : name ∉ Fields.names fields := by
          refine Fields.lookup_eq_none.1 (Option.eq_none_iff_forall_ne_some.2 fun a ha => ?_)
          exact hchild a (congrArg Except.ok ha)
        rcases Path.names_or_index back with ⟨names, rfl⟩ | ⟨names, i, rest, rfl⟩
        · exact .inl (.inr ⟨front, fields, name, names, rfl, hw, hname⟩)
        · have hpath : front ++ .name name :: (names.map .name ++ .index i :: rest) =
              (front ++ (name :: names).map .name) ++ .index i :: rest := by simp
          rw [hpath]
          exact .inr ⟨_, .made ⟨front, fields, name, names, rfl, hw, hname⟩⟩
      · exact .inr ⟨_, .name hw hk⟩

theorem exists_setAt_names {fields : List (String × Tree L)} {name : String}
    (h : name ∉ Fields.names fields) (names : List String) :
    ∃ t', setAt x merge ((name :: names).map .name) (Tree.object fields) = .ok () t' := by
  induction names generalizing fields name with
  | nil => exact ⟨_, setAt_fresh x merge h⟩
  | cons next names ih =>
      obtain ⟨b, hb⟩ : ∃ b, setAt x merge (.name next :: names.map .name)
          (emptyFor (.name next) : Tree L) = .ok () b := ih List.not_mem_nil
      refine ⟨.object (Fields.put name b fields), ?_⟩
      rw [List.map_cons, List.map_cons, setAt_branch x merge h, hb]

theorem setAt_names_index {fields : List (String × Tree L)} {name : String}
    (h : name ∉ Fields.names fields) (names : List String) (i : Nat) (back : Path) :
    setAt x merge ((name :: names).map .name ++ .index i :: back) (Tree.object fields) =
      .error ⟨.outOfBounds i 0, (name :: names).map .name ++ [.index i]⟩ (Tree.object fields) := by
  induction names generalizing fields name with
  | nil =>
      have hempty : setAt x merge (.index i :: back) (emptyFor (.index i) : Tree L) =
          .error ⟨.outOfBounds i 0, [.index i]⟩ (.array []) :=
        setAt_outOfBounds x merge rfl back
      rw [List.map_cons, List.map_nil, List.cons_append, List.nil_append, setAt_branch x merge h,
        hempty]
      rfl
  | cons next names ih =>
      have hbelow : setAt x merge (.name next :: (names.map .name ++ .index i :: back))
          (emptyFor (.name next) : Tree L) =
          .error ⟨.outOfBounds i 0, .name next :: (names.map .name ++ [.index i])⟩ (.object []) :=
        ih List.not_mem_nil
      rw [List.map_cons, List.map_cons, List.cons_append, List.cons_append,
        setAt_branch x merge h, hbelow]
      rfl

theorem exists_set_of_get {w : Tree L} (h : Backend.get t path = .ok (some w)) :
    ∃ t', Backend.set t path x merge = .ok t' := by
  obtain ⟨slot, hleads, -⟩ := leads_of_get h
  obtain ⟨inner, hinner⟩ := Backend.setAt_target_ok x merge slot.node
  refine ⟨slot.refill inner, ?_⟩
  rw [← List.append_nil path, Backend.set_through hleads, Backend.set, hinner]
  rfl

theorem exists_set_of_creates (h : Creates t path) :
    ∃ t', Backend.set t path x merge = .ok t' := by
  obtain ⟨front, fields, name, names, rfl, hobject, hname⟩ := h
  obtain ⟨inner, hinner⟩ : ∃ inner, Backend.set (Tree.object fields) ((name :: names).map .name) x
      merge = .ok inner := by
    obtain ⟨inner, h⟩ := exists_setAt_names hname names
    exact ⟨inner, by rw [Backend.set, h]⟩
  rw [set_through_of_ok hobject hinner]
  exact exists_set_of_get hobject

theorem set_through_of_refused {front back : Path} {key : Key} {fault : Fault} {w : Tree L}
    (h : Backend.get t front = .ok (some w))
    (hw : Backend.set w (key :: back) x merge = .error ⟨fault, [key]⟩) :
    Backend.set t (front ++ key :: back) x merge = .error ⟨fault, front ++ [key]⟩ :=
  set_through_of_error h hw

theorem set_of_stops {e : Error} (h : Stops t path e) : Backend.set t path x merge = .error e := by
  cases h with
  | name hw hk =>
      refine set_through_of_refused hw ?_
      rw [Backend.set, setAt_name_mismatch x merge hk]
      rfl
  | index hw hk =>
      refine set_through_of_refused hw ?_
      rw [Backend.set, setAt_index_mismatch x merge hk]
      rfl
  | range hw hlength =>
      refine set_through_of_refused hw ?_
      rw [Backend.set, setAt_outOfBounds x merge (List.getElem?_eq_none hlength)]
  | @made _ back i hcreates =>
      obtain ⟨front, fields, name, names, rfl, hobject, hname⟩ := hcreates
      have hmade : Backend.set (Tree.object fields) ((name :: names).map .name ++ .index i :: back)
          x merge = .error ⟨.outOfBounds i 0, (name :: names).map .name ++ [.index i]⟩ := by
        rw [Backend.set, setAt_names_index hname]
      rw [List.append_assoc, set_through_of_error hobject hmade, List.append_assoc]
      rfl

/-- A write succeeds exactly where its path leads to a node of the tree, or to a field that is
missing and then on by names; everywhere else it fails at the first key that cannot be followed. -/
theorem set_outcome :
    ((∃ t', Backend.set t path x merge = .ok t') ↔
      (∃ w, Backend.get t path = .ok (some w)) ∨ Creates t path) ∧
    ∀ e, Backend.set t path x merge = .error e ↔ Stops t path e :=
  outcome_iff (fun h => h.elim (fun ⟨_, hw⟩ => exists_set_of_get hw) exists_set_of_creates)
    (fun _ => set_of_stops) (arrives_or_stops t path)

theorem set_outcome_made :
    let t : Value := .object [("a", .object []), ("l", .array [Value.int 1, Value.int 2])]
    (∃ t', Backend.set t [.name "a", .name "b", .name "c"] (Value.int 0) true = .ok t') ∧
      Backend.set t [.name "l", .index 2, .name "c"] (Value.int 0) true =
        .error ⟨.outOfBounds 2 2, [.name "l", .index 2]⟩ ∧
      Backend.set t [.name "l", .index 1, .name "c"] (Value.int 0) true =
        .error ⟨.typeMismatch "object" (.scalar .int), [.name "l", .index 1, .name "c"]⟩ ∧
      Backend.set t [.name "a", .name "b", .index 0, .name "c"] (Value.int 0) true =
        .error ⟨.outOfBounds 0 0, [.name "a", .name "b", .index 0]⟩ := by
  intro t
  have hcreates (names : List String) : Creates t (.name "a" :: .name "b" :: names.map .name) :=
    ⟨[.name "a"], [], "b", names, rfl, rfl, List.not_mem_nil⟩
  have hlist : Backend.get t [.name "l"] = .ok (some (.array [Value.int 1, Value.int 2])) := rfl
  have hitem : Backend.get t [.name "l", .index 1] = .ok (some (Value.int 2)) := rfl
  exact ⟨set_outcome.1.2 (.inr (hcreates ["c"])), (set_outcome.2 _).2 (.range hlist (by decide)),
    (set_outcome.2 _).2 (.name hitem (by decide)), (set_outcome.2 _).2 (.made (hcreates []))⟩

end Tree

end DataTree
