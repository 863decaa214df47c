import DataTree.Proofs.Tree.PathLaw
import DataTree.Proofs.Tree.Removed

namespace DataTree.Tree

open Backend (remove)

variable {L : Type} [Leaf L] {t t' w : Tree L} {path : Path}

/-- The path leads by names of existing fields to an object, and ends with one more name. -/
def Removable (t : Tree L) (path : Path) : Prop :=
  ∃ (names : List String) (name : String) (fields : List (String × Tree L)),
    path = names.map .name ++ [.name name] ∧
    Backend.get t (names.map .name) = .ok (some (.object fields))

/-- The first key of a path that a removal does not get past, as an error: one that is no name, or a
name at a node that is no object, or a name before the last one that is missing in an object. -/
inductive Bars (t : Tree L) : Path → Error → Prop
  | mismatch {names : List String} {key : Key} {back : Path} {w : Tree L} :
      Backend.get t (names.map .name) = .ok (some w) →
      (key.isIndex = true ∨ Backend.kind w ≠ .object) →
      Bars t (names.map .name ++ key :: back)
        ⟨.typeMismatch "object" (Backend.kind w), names.map .name ++ [key]⟩
  | missing {names : List String} {fields : List (String × Tree L)} {name : String} {next : Key}
      {back : Path} :
      Backend.get t (names.map .name) = .ok (some (.object fields)) → name ∉ Fields.names fields →
      Bars t (names.map .name ++ .name name :: next :: back)
        ⟨.keyNotFound name, names.map .name ++ [.name name]⟩

/-- The second tree is the first one without the field at the path. -/
structure TakenOut (path : Path) (t t' : Tree L) : Prop where
  gone : Backend.get t' path = .ok none
  again : remove path t' = .ok t'
  absent : Backend.get t path = .ok none → t' = t
  beside : ∀ other, path.Diverge other → Backend.get t' other = Backend.get t other
  /-- An object that the path leads through has one field replaced in its place. -/
  passed : ∀ front name next back fields, path = front ++ .name name :: next :: back →
    Backend.get t front = .ok (some (.object fields)) →
    ∃ y fields', Backend.get t' front = .ok (some (.object fields')) ∧
      Fields.Stored name y fields fields'
  /-- The object at the end of the path has one field taken out. -/
  reached : ∀ front name fields, path = front ++ [.name name] →
    Backend.get t front = .ok (some (.object fields)) →
    ∃ fields', Backend.get t' front = .ok (some (.object fields')) ∧
      Fields.Dropped name fields fields'

namespace Removed

theorem gone (r : Removed path t t') (hne : path ≠ []) : Backend.get t' path = .ok none := by
  induction r with
  | root => exact absurd rfl hne
  | @last fields name =>
      exact get_name_none (Fields.lookup_eq_none.2 (Fields.notMem_names_erase name fields)) []
  | @field fields name next rest a b hf _ ih =>
      rw [get_name_some (Fields.lookup_put_self name b fields), ih (List.cons_ne_nil _ _)]
      rfl

theorem again (r : Removed path t t') (hne : path ≠ []) : remove path t' = .ok t' := by
  induction r with
  | root => exact absurd rfl hne
  | @last fields name =>
      rw [remove_last, Fields.erase_of_notMem (Fields.notMem_names_erase name fields)]
  | @field fields name next rest a b hf _ ih =>
      rw [remove_field (Fields.lookup_put_self name b fields), ih (List.cons_ne_nil _ _)]
      exact congrArg (fun fields => Except.ok (Tree.object fields)) (Fields.put_put name b b fields)

theorem eq_self (r : Removed path t t') (h : Backend.get t path = .ok none) : t' = t := by
  induction r with
  | root => cases h
  | @last fields name =>
      cases hf : List.lookup name fields with
      | none => rw [Fields.erase_of_notMem (Fields.lookup_eq_none.1 hf)]
      | some a =>
          rw [get_name_some hf] at h
          cases h
  | @field fields name next rest a b hf _ ih =>
      rw [get_name_some hf, mapError_eq_ok] at h
      rw [ih h, Fields.put_of_lookup hf]

theorem get_beside (r : Removed path t t') (hne : path ≠ []) {other : Path}
    (hd : path.Diverge other) : Backend.get t' other = Backend.get t other := by
  induction r generalizing other with
  | root => exact absurd rfl hne
  | last =>
      refine Backend.get_of_diverge hd (fun below _ hbelow => ?_) fun first below _ hkey => ?_
      · exact absurd hbelow.symm Path.not_diverge_nil
      · exact child_object_erase hkey
  | @field fields name next rest a b hf _ ih =>
      refine Backend.get_of_diverge hd (fun below _ hbelow => ?_) fun first below _ hkey => ?_
      · rw [get_name_some (Fields.lookup_put_self name b fields), get_name_some hf,
          ih (List.cons_ne_nil _ _) hbelow]
      · exact child_object_put hkey

theorem object_changed (r : Removed path t t') {front back : Path} {name : String}
    {fields : List (String × Tree L)} (hp : path = front ++ .name name :: back)
    (hf : Backend.get t front = .ok (some (.object fields))) :
    ∃ fields', Backend.get t' front = .ok (some (.object fields')) ∧
      (back = [] → fields' = Fields.erase name fields) ∧
      (back ≠ [] → ∃ y, fields' = Fields.put name y fields) := by
  induction r generalizing front with
  | root => simp at hp
  | last =>
      cases front with
      | nil =>
          cases hp
          cases hf
          exact ⟨_, rfl, fun _ => rfl, fun hback => absurd rfl hback⟩
      | cons key front => simp at hp
  | field hn _ ih =>
      cases front with
      | nil =>
          cases hp
          cases hf
          exact ⟨_, rfl, nofun, fun _ => ⟨_, rfl⟩⟩
      | cons key front =>
          obtain ⟨rfl, hrest⟩ := List.cons.inj hp
          obtain ⟨a, ha, hfront⟩ := get_name_eq_some.1 hf
          obtain rfl := Option.some.inj (hn.symm.trans ha)
          obtain ⟨fields', hget, hchanged⟩ := ih hrest hfront
          exact ⟨fields', get_name_eq_some.2 ⟨_, Fields.lookup_put_self _ _ _, hget⟩, hchanged⟩

theorem takenOut (r : Removed path t t') (ht : t.Distinct) (hne : path ≠ []) :
    TakenOut path t t' where
  gone := r.gone hne
  again := r.again hne
  absent := r.eq_self
  beside other := r.get_beside hne
  passed front name next back fields hp hf := by
    obtain ⟨fields', hget, -, hput⟩ := r.object_changed hp hf
    obtain ⟨y, rfl⟩ := hput (List.cons_ne_nil next back)
    exact ⟨y, _, hget, Fields.stored_put name y fields⟩
  reached front name fields hp hf := by
    obtain ⟨fields', hget, herase, -⟩ := r.object_changed hp hf
    obtain rfl := herase rfl
    have hd : Distinct (.object fields) := hereditary_distinct.get ht hf
    exact ⟨_, hget, Fields.dropped_erase name hd.1⟩

end Removed

theorem remove_through {names : List String} (h : Backend.get t (names.map .name) = .ok (some w))
    (key : Key) (rest : Path) :
    ∃ refill : Tree L → Tree L, remove (names.map .name ++ key :: rest) t =
      ((remove (key :: rest) w).map refill).mapError (Error.within (names.map .name)) := by
  induction names generalizing t with
  | nil =>
      cases h
      refine ⟨id, ?_⟩
      rw [List.map_nil, List.nil_append]
      cases remove (key :: rest) w <;> rfl
  | cons name names ih =>
      obtain ⟨a, ha, hbelow⟩ := Backend.get_cons_eq_some.1 h
      obtain ⟨refill, hrefill⟩ := ih hbelow
      obtain ⟨next, back, hback⟩ : ∃ next back, names.map .name ++ key :: rest = next :: back :=
        List.exists_cons_of_ne_nil (by simp)
      cases t with
      | object fields =>
          refine ⟨fun x => .object (Fields.put name (refill x) fields), ?_⟩
          rw [List.map_cons, List.cons_append, hback, remove_field (Except.ok.inj ha), ← hback,
            hrefill]
          cases remove (key :: rest) w <;> rfl
      | _ => cases ha

theorem exists_remove_of_removable (h : Removable t path) : ∃ t', remove path t = .ok t' := by
  obtain ⟨names, name, fields, rfl, hobject⟩ := h
  obtain ⟨refill, hrefill⟩ := remove_through hobject (.name name) []
  rw [hrefill, remove_last]
  exact ⟨_, rfl⟩

theorem remove_of_bars {e : Error} (h : Bars t path e) : remove path t = .error e := by
  cases h with
  | @mismatch names key back w hw hkey =>
      obtain ⟨refill, hrefill⟩ := remove_through hw key back
      have hrefused : remove (key :: back) w =
          .error ⟨.expectedObject (Backend.kind w), [key]⟩ := by
        cases key with
        | index i => exact remove_index i back w
        | name name => exact remove_mismatch (hkey.resolve_left nofun) name back
      rw [hrefill, hrefused]
      rfl
  | @missing names fields name next back hobject hname =>
      obtain ⟨refill, hrefill⟩ := remove_through hobject (.name name) (next :: back)
      rw [hrefill, remove_missing (Fields.lookup_eq_none.2 hname)]
      rfl

theorem Removable.field {fields : List (String × Tree L)} {name : String} {a : Tree L}
    (hf : List.lookup name fields = some a) (h : Removable a path) :
    Removable (.object fields) (.name name :: path) := by
  obtain ⟨names, last, others, rfl, hobject⟩ := h
  exact ⟨name :: names, last, others, rfl, get_name_eq_some.2 ⟨a, hf, hobject⟩⟩

theorem Bars.field {fields : List (String × Tree L)} {name : String} {a : Tree L} {e : Error}
    (hf : List.lookup name fields = some a) (h : Bars a path e) :
    Bars (.object fields) (.name name :: path) (e.within [.name name]) := by
  cases h with
  | @mismatch names key back w hw hkey =>
      have hget : Backend.get (Tree.object fields) ((name :: names).map .name) = .ok (some w) :=
        get_name_eq_some.2 ⟨a, hf, hw⟩
      exact .mismatch hget hkey
  | @missing names others last next back hobject hname =>
      have hget : Backend.get (Tree.object fields) ((name :: names).map .name) =
          .ok (some (.object others)) := get_name_eq_some.2 ⟨a, hf, hobject⟩
      exact .missing hget hname

theorem removable_or_bars (hne : path ≠ []) : Removable t path ∨ ∃ e, Bars t path e := by
  induction path generalizing t with
  | nil => exact absurd rfl hne
  | cons key rest ih =>
      -- at the first key no name has been followed yet
      have here : Backend.get t (([] : List String).map .name) = .ok (some t) := rfl
      cases key with
      | index i => exact .inr ⟨_, .mismatch here (.inl rfl)⟩
      | name name =>
          by_cases hk : Backend.kind t = .object
          · obtain ⟨fields, rfl⟩ := kind_eq_object.1 hk
            cases rest with
            | nil => exact .inl ⟨[], name, fields, rfl, rfl⟩
            | cons next rest =>
                cases hf : List.lookup name fields with
                | none => exact .inr ⟨_, .missing here (Fields.lookup_eq_none.1 hf)⟩
                | some a =>
                    rcases ih (List.cons_ne_nil next rest) with h | ⟨e, h⟩
                    · exact .inl (h.field hf)
                    · exact .inr ⟨_, h.field hf⟩
          · exact .inr ⟨_, .mismatch here (.inr hk)⟩

/-- A removal succeeds exactly where its path leads by names of existing fields to an object and
ends with one more name; it then takes out that field and nothing else. Everywhere else it fails at
the first key that it does not get past. -/
theorem remove_outcome (ht : t.Distinct) (hne : path ≠ []) :
    ((∃ t', remove path t = .ok t') ↔ Removable t path) ∧
    (∀ t', remove path t = .ok t' → TakenOut path t t') ∧
    ∀ e, remove path t = .error e ↔ Bars t path e := by
  have htotal : Removable t path ∨ ∃ e, Bars t path e := removable_or_bars hne
  obtain ⟨hok, herror⟩ := outcome_iff exists_remove_of_removable (fun e => remove_of_bars) htotal
  exact ⟨hok, fun t' h => (removed_of_remove h).takenOut ht hne, herror⟩

theorem remove_outcome_nested :
    let t : Value := .object [("a", .object [("b", Value.int 1), ("c", .array [Value.int 2])]),
      ("d", Value.int 3)]
    let u : Value := .object [("a", .object [("c", .array [Value.int 2])]), ("d", Value.int 3)]
    t.Distinct ∧ [Key.name "a", .name "b"] ≠ [] ∧ TakenOut [.name "a", .name "b"] t u ∧
      remove [.name "a", .name "x", .name "y"] t =
        .error ⟨.keyNotFound "x", [.name "a", .name "x"]⟩ ∧
      remove [.name "a", .name "c", .index 0] t =
        .error ⟨.typeMismatch "object" .array, [.name "a", .name "c", .index 0]⟩ := by
  intro t u
  have ht : t.Distinct := by
    simp [t, Distinct, DistinctFields, DistinctItems, Fields.Distinct, Fields.names]
  have ha : Backend.get t (["a"].map .name) = .ok (some (.object [("b", Value.int 1),
    ("c", .array [Value.int 2])])) := rfl
  have hc : Backend.get t (["a", "c"].map .name) = .ok (some (.array [Value.int 2])) := rfl
  have hmissing : Bars t [.name "a", .name "x", .name "y"]
      ⟨.keyNotFound "x", [.name "a", .name "x"]⟩ :=
    .missing ha (by decide)
  have hmismatch : Bars t [.name "a", .name "c", .index 0]
      ⟨.typeMismatch "object" .array, [.name "a", .name "c", .index 0]⟩ :=
    .mismatch hc (.inl rfl)
  have hne (key : Key) (rest : Path) : key :: rest ≠ [] := List.cons_ne_nil key rest
  exact ⟨ht, hne _ _, (remove_outcome ht (hne _ _)).2.1 u rfl,
    ((remove_outcome ht (hne _ _)).2.2 _).2 hmissing,
    ((remove_outcome ht (hne _ _)).2.2 _).2 hmismatch⟩

end DataTree.Tree
