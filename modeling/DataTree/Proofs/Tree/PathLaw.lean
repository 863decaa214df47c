import DataTree.Proofs.Backend.Through
import DataTree.Proofs.Tree.Written

namespace DataTree

def Path.Diverge (p q : Path) : Prop := ¬ p <+: q ∧ ¬ q <+: p

theorem Path.Diverge.symm {p q : Path} (h : p.Diverge q) : q.Diverge p := ⟨h.2, h.1⟩

theorem Path.diverge_of_ne {k l : Key} (h : k ≠ l) : Path.Diverge [k] [l] := by
  simp [Path.Diverge, h, h.symm]

theorem Path.not_diverge_nil {p : Path} : ¬ Path.Diverge p [] := fun h => h.2 List.nil_prefix

theorem Path.diverge_cons_self {key : Key} {p q : Path} :
    Path.Diverge (key :: p) (key :: q) ↔ p.Diverge q := by
  simp only [Diverge, List.cons_prefix_cons, true_and]

theorem Backend.get_of_diverge {S : Type} [Backend S] {node node' : S} {key : Key}
    {rest other : Path} (hd : Path.Diverge (key :: rest) other)
    (hself : ∀ below, other = key :: below → rest.Diverge below →
      Backend.get node' (key :: below) = Backend.get node (key :: below))
    (hbeside : ∀ first below, other = first :: below → first ≠ key →
      child node' first = child node first) :
    Backend.get node' other = Backend.get node other := by
  cases other with
  | nil => exact absurd hd Path.not_diverge_nil
  | cons first below =>
      by_cases hk : first = key
      · subst hk
        exact hself below rfl (Path.diverge_cons_self.1 hd)
      · exact get_congr (hbeside first below rfl hk) below

namespace Tree

variable {L : Type} [Leaf L]

theorem get_index_some {items : List (Tree L)} {i : Nat} {a : Tree L} (h : items[i]? = some a)
    (rest : Path) : Backend.get (Tree.array items) (.index i :: rest) =
      (Backend.get a rest).mapError (Error.within [.index i]) := by
  have hc : Backend.child (Tree.array items) (.index i) = .ok (some a) := congrArg _ h
  exact Backend.get_cons hc rest

theorem get_index_none {items : List (Tree L)} {i : Nat} (h : items[i]? = none) (rest : Path) :
    Backend.get (Tree.array items) (.index i :: rest) = .ok none := by
  have hc : Backend.child (Tree.array items) (.index i) = .ok none := congrArg _ h
  rw [Backend.get, hc]

theorem get_name_some {fields : List (String × Tree L)} {name : String} {a : Tree L}
    (h : List.lookup name fields = some a) (rest : Path) :
    Backend.get (Tree.object fields) (.name name :: rest) =
      (Backend.get a rest).mapError (Error.within [.name name]) := by
  have hc : Backend.child (Tree.object fields) (.name name) = .ok (some a) := congrArg _ h
  exact Backend.get_cons hc rest

theorem get_name_none {fields : List (String × Tree L)} {name : String}
    (h : List.lookup name fields = none) (rest : Path) :
    Backend.get (Tree.object fields) (.name name :: rest) = .ok none := by
  have hc : Backend.child (Tree.object fields) (.name name) = .ok none := congrArg _ h
  rw [Backend.get, hc]

theorem get_index_eq_some {items : List (Tree L)} {i : Nat} {rest : Path} {v : Tree L} :
    Backend.get (Tree.array items) (.index i :: rest) = .ok (some v) ↔
      ∃ a, items[i]? = some a ∧ Backend.get a rest = .ok (some v) := by
  cases h : items[i]? with
  | none => simp [get_index_none h]
  | some a => simp [get_index_some h]

theorem get_name_eq_some {fields : List (String × Tree L)} {name : String} {rest : Path}
    {v : Tree L} :
    Backend.get (Tree.object fields) (.name name :: rest) = .ok (some v) ↔
      ∃ a, List.lookup name fields = some a ∧ Backend.get a rest = .ok (some v) := by
  cases h : List.lookup name fields with
  | none => simp [get_name_none h]
  | some a => simp [get_name_some h]

def settled (merge : Bool) (x : Tree L) (old : Option (Tree L)) : Tree L :=
  old.elim x (stored merge x)

theorem Written.get_self {x t t' : Tree L} {merge : Bool} {path : Path}
    (w : Written x merge path t t') : ∃ old, Backend.get t path = .ok old ∧
      Backend.get t' path = .ok (some (settled merge x old)) := by
  induction w with
  | target => exact ⟨_, rfl, rfl⟩
  | @item items i rest a b hi _ ih =>
      obtain ⟨old, hold, hnew⟩ := ih
      have hlt : i < items.length := (List.getElem?_eq_some_iff.1 hi).1
      refine ⟨old, ?_, ?_⟩
      · rw [get_index_some hi, hold]
        rfl
      · rw [get_index_some (List.getElem?_set_self hlt), hnew]
        rfl
  | field hf _ ih =>
      obtain ⟨old, hold, hnew⟩ := ih
      refine ⟨old, ?_, ?_⟩
      · rw [get_name_some hf, hold]
        rfl
      · rw [get_name_some (Fields.lookup_put_self _ _ _), hnew]
        rfl
  | fresh hn =>
      refine ⟨none, get_name_none (Fields.lookup_eq_none.2 hn) _, ?_⟩
      rw [get_name_some (Fields.lookup_put_self _ _ _)]
      rfl
  | branch hn _ ih =>
      obtain ⟨old, hold, hnew⟩ := ih
      cases hold
      refine ⟨none, get_name_none (Fields.lookup_eq_none.2 hn) _, ?_⟩
      rw [get_name_some (Fields.lookup_put_self _ _ _), hnew]
      rfl

theorem get_put_diverge {fields : List (String × Tree L)} {name : String} {b v : Tree L}
    {rest other : Path} (hd : Path.Diverge (.name name :: rest) other)
    (hb : ∀ below, rest.Diverge below → (Backend.get b below = .ok (some v) ↔
      ∃ a, List.lookup name fields = some a ∧ Backend.get a below = .ok (some v))) :
    Backend.get (Tree.object (Fields.put name b fields)) other = .ok (some v) ↔
      Backend.get (Tree.object fields) other = .ok (some v) := by
  cases other with
  | nil => exact absurd hd Path.not_diverge_nil
  | cons key below =>
      cases key with
      | index j => exact ⟨nofun, nofun⟩
      | name key =>
          rw [get_name_eq_some, get_name_eq_some]
          by_cases hk : key = name
          · subst hk
            simp only [Fields.lookup_put_self, Option.some.injEq, exists_eq_left']
            exact hb below (Path.diverge_cons_self.1 hd)
          · rw [Fields.lookup_put_of_ne hk]

theorem Written.get_diverge {x t t' : Tree L} {merge : Bool} {path : Path}
    (w : Written x merge path t t') {other : Path} (hd : path.Diverge other) (v : Tree L) :
    Backend.get t' other = .ok (some v) ↔ Backend.get t other = .ok (some v) := by
  induction w generalizing other with
  | target => exact absurd hd.symm Path.not_diverge_nil
  | @item items i rest a b hi _ ih =>
      cases other with
      | nil => exact absurd hd Path.not_diverge_nil
      | cons key other =>
          cases key with
          | name name => exact ⟨nofun, nofun⟩
          | index j =>
              rw [get_index_eq_some, get_index_eq_some]
              by_cases hj : i = j
              · subst hj
                have hlt : i < items.length := (List.getElem?_eq_some_iff.1 hi).1
                simp [List.getElem?_set_self hlt, hi, ih (Path.diverge_cons_self.1 hd)]
              · rw [List.getElem?_set_ne hj]
  | field hf _ ih =>
      refine get_put_diverge hd fun below hb => ?_
      simp only [hf, Option.some.injEq, exists_eq_left']
      exact ih hb
  | fresh => exact get_put_diverge hd fun below hb => absurd List.nil_prefix hb.1
  | branch hn _ ih =>
      refine get_put_diverge hd fun below hb => ?_
      simp only [Fields.lookup_eq_none.2 hn, reduceCtorEq, false_and, exists_false, iff_false]
      intro h
      -- the branch starts out empty, so nothing is found beside the rest of the path
      have hempty := (ih hb).1 h
      cases below with
      | nil => exact hb.2 List.nil_prefix
      | cons key below => cases key <;> cases hempty

theorem Written.object_stored {x t t' : Tree L} {merge : Bool} {path : Path}
    (w : Written x merge path t t') {front back : Path} {name : String}
    {fields : List (String × Tree L)} (hp : path = front ++ .name name :: back)
    (hf : Backend.get t front = .ok (some (.object fields))) :
    ∃ y fields', Backend.get t' front = .ok (some (.object fields')) ∧
      Fields.Stored name y fields fields' := by
  induction w generalizing front with
  | target => simp at hp
  | item hi _ ih =>
      cases front with
      | nil => cases hp
      | cons key front =>
          cases hp
          obtain ⟨a, ha, hfront⟩ := get_index_eq_some.1 hf
          obtain rfl := Option.some.inj (hi.symm.trans ha)
          obtain ⟨y, fields', hget, hs⟩ := ih rfl hfront
          have hlt := (List.getElem?_eq_some_iff.1 hi).1
          exact ⟨y, fields', get_index_eq_some.2 ⟨_, List.getElem?_set_self hlt, hget⟩, hs⟩
  | field hn _ ih =>
      cases front with
      | nil =>
          cases hp
          cases hf
          exact ⟨_, _, rfl, Fields.stored_put _ _ _⟩
      | cons key front =>
          cases hp
          obtain ⟨a, ha, hfront⟩ := get_name_eq_some.1 hf
          obtain rfl := Option.some.inj (hn.symm.trans ha)
          obtain ⟨y, fields', hget, hs⟩ := ih rfl hfront
          exact ⟨y, fields', get_name_eq_some.2 ⟨_, Fields.lookup_put_self _ _ _, hget⟩, hs⟩
  | fresh =>
      cases front with
      | nil =>
          cases hp
          cases hf
          exact ⟨_, _, rfl, Fields.stored_put _ _ _⟩
      | cons key front => simp at hp
  | branch hn =>
      cases front with
      | nil =>
          cases hp
          cases hf
          exact ⟨_, _, rfl, Fields.stored_put _ _ _⟩
      | cons key front =>
          obtain rfl := (List.cons.inj hp).1
          rw [get_name_none (Fields.lookup_eq_none.2 hn)] at hf
          cases hf

theorem Hereditary.get {q : Tree L → Prop} (hq : Hereditary q) {t v : Tree L} {path : Path}
    (ht : q t) (h : Backend.get t path = .ok (some v)) : q v := by
  induction path generalizing t with
  | nil =>
      cases h
      exact ht
  | cons key rest ih =>
      cases key with
      | index i =>
          cases t with
          | array items =>
              obtain ⟨a, ha, hr⟩ := get_index_eq_some.1 h
              exact ih (hq.item ht (List.mem_of_getElem? ha)) hr
          | _ => cases h
      | name name =>
          cases t with
          | object fields =>
              obtain ⟨a, ha, hr⟩ := get_name_eq_some.1 h
              exact ih (hq.find ht ha) hr
          | _ => cases h

omit [Leaf L] in
theorem settled_leaf (merge : Bool) (x : L) (old : Option (Tree L)) :
    settled merge (.leaf x) old = .leaf x := by
  cases old with
  | none => rfl
  | some t => cases t <;> cases merge <;> rfl

omit [Leaf L] in
theorem settled_array (merge : Bool) (items : List (Tree L)) (old : Option (Tree L)) :
    settled merge (.array items) old = .array items := by
  cases old with
  | none => rfl
  | some t => cases t <;> cases merge <;> rfl

omit [Leaf L] in
theorem settled_object (news : List (String × Tree L)) (old : Option (Tree L)) :
    settled true (.object news) old = .object news ∨
      ∃ fields, settled true (.object news) old = .object (Fields.putAll news fields) := by
  cases old with
  | none => exact Or.inl rfl
  | some t =>
      cases t with
      | object fields => exact Or.inr ⟨fields, rfl⟩
      | _ => exact Or.inl rfl

theorem get_settled {t v : Tree L} (ht : t.Distinct) {path : Path} (hp : path ≠ [])
    (h : Backend.get t path = .ok (some v)) (old : Option (Tree L)) :
    Backend.get (settled true t old) path = .ok (some v) := by
  cases t with
  | leaf x => rwa [settled_leaf]
  | array items => rwa [settled_array]
  | object news =>
      rcases settled_object news old with ho | ⟨fields, ho⟩
      · rwa [ho]
      · rw [ho]
        cases path with
        | nil => exact absurd rfl hp
        | cons key rest =>
            cases key with
            | index i => cases h
            | name name =>
                obtain ⟨a, ha, hr⟩ := get_name_eq_some.1 h
                refine get_name_eq_some.2 ⟨a, ?_, hr⟩
                rw [Fields.lookup_putAll ht.1, ha]
                rfl

/-- What a path holds once `x` was written to it: `x` itself, or the old object with the fields of
`x` laid over its own. -/
def overlaid (merge : Bool) (x : Tree L) : Option (Tree L) → Tree L
  | some (.object fields) =>
    match merge, x with
    | true, .object news => .object (Fields.overlay news fields)
    | _, x => x
  | _ => x

omit [Leaf L] in
theorem settled_eq_overlaid {merge : Bool} {x : Tree L} {old : Option (Tree L)} (hx : x.Distinct)
    (ho : ∀ t, old = some t → t.Distinct) : settled merge x old = overlaid merge x old := by
  cases old with
  | none => rfl
  | some t =>
      cases t with
      | object fields =>
          cases merge with
          | false => rfl
          | true =>
              cases x with
              | object news =>
                  exact congrArg Tree.object (Fields.putAll_eq_overlay hx.1 (ho _ rfl).1)
              | _ => rfl
      | _ => rfl

/-- The path law: after a write the path holds what was written to it, or the merged object; what
stands at a path beside it is found as before; and every object on the way stores one field, in
its place or behind the others, and keeps these in their order. -/
theorem get_set {t t' x : Tree L} {path : Path} {merge : Bool} (ht : t.Distinct) (hx : x.Distinct)
    (h : Backend.set t path x merge = .ok t') :
    (∃ old, Backend.get t path = .ok old ∧
      Backend.get t' path = .ok (some (overlaid merge x old))) ∧
    (∀ other, path.Diverge other → ∀ v,
      Backend.get t' other = .ok (some v) ↔ Backend.get t other = .ok (some v)) ∧
    (∀ front name back fields, path = front ++ .name name :: back →
      Backend.get t front = .ok (some (.object fields)) →
      ∃ y fields', Backend.get t' front = .ok (some (.object fields')) ∧
        Fields.Stored name y fields fields') := by
  have w := written_of_set hx h
  refine ⟨?_, fun other hd v => w.get_diverge hd v, fun front name back fields hp hf =>
    w.object_stored hp hf⟩
  obtain ⟨old, hold, hnew⟩ := w.get_self
  refine ⟨old, hold, ?_⟩
  rw [hnew, settled_eq_overlaid hx]
  rintro v rfl
  exact hereditary_distinct.get ht hold

/-- Merging below a field: the overridden field keeps its place, the new one comes last. -/
theorem get_set_merging :
    ∃ t' : Value,
      Backend.set (Tree.object [("a", .object [("x", Value.int 1), ("z", Value.int 2)])])
        [.name "a"] (Tree.object [("y", Value.int 4), ("x", Value.int 3)]) true = .ok t' ∧
      Backend.get t' [.name "a"] =
        .ok (some (.object [("x", Value.int 3), ("z", Value.int 2), ("y", Value.int 4)])) := by
  obtain ⟨t', hs⟩ : ∃ t' : Value,
      Backend.set (Tree.object [("a", .object [("x", Value.int 1), ("z", Value.int 2)])])
        [.name "a"] (Tree.object [("y", Value.int 4), ("x", Value.int 3)]) true = .ok t' := ⟨_, rfl⟩
  obtain ⟨⟨old, hold, hnew⟩, -, -⟩ := get_set
    (by simp [Distinct, DistinctFields, Fields.Distinct, Fields.names])
    (by simp [Distinct, DistinctFields, Fields.Distinct, Fields.names]) hs
  cases hold
  exact ⟨t', hs, hnew⟩

end Tree

end DataTree
