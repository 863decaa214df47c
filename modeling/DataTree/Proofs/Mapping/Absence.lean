import DataTree.Mapping.Reader
import DataTree.Proofs.Backend.Through
import DataTree.Proofs.Mapping.Lawful
import DataTree.Proofs.Tree.PathLaw
import DataTree.Proofs.Tree.Removal

namespace DataTree

namespace Tree

variable {L : Type} [Leaf L] {t : Tree L} {name : String} {front path : Path}

omit [Leaf L] in
/-- The tree with the field of the name taken out of the object at the path. -/
def without (name : String) : Path → Tree L → Tree L
  | [], .object fields => .object (Fields.erase name fields)
  | .name key :: rest, .object fields =>
    match List.lookup key fields with
    | some a => .object (Fields.put key (without name rest a) fields)
    | none => .object fields
  | .index i :: rest, .array items => .array (items.modify i (without name rest))
  | _, t => t

omit [Leaf L] in
theorem without_field {fields : List (String × Tree L)} {key : String} {a : Tree L}
    (h : List.lookup key fields = some a) (rest : Path) :
    without name (.name key :: rest) (.object fields) =
      .object (Fields.put key (without name rest a) fields) := by
  rw [without, h]

theorem eq_without_of_remove {t' : Tree L}
    (h : Backend.remove (front ++ [.name name]) t = .ok t') : t' = without name front t := by
  have r := removed_of_remove h
  clear h
  induction front generalizing t t' with
  | nil =>
      cases r
      rfl
  | cons key rest ih =>
      rw [List.cons_append] at r
      obtain ⟨next, back, hback⟩ := List.exists_cons_of_ne_nil
        (List.append_ne_nil_of_right_ne_nil rest (List.cons_ne_nil (.name name) []))
      rw [hback] at r ih
      cases r with
      | field hf r => rw [without_field hf, ← ih r]

theorem kind_without (name : String) (front : Path) (t : Tree L) :
    Backend.kind (without name front t) = Backend.kind t := by
  unfold without
  split
  next => rfl
  next => split <;> rfl
  next => rfl
  next => rfl

theorem scalar_without (name : String) (front : Path) (t : Tree L) (hint : ScalarKind) :
    Backend.scalar (without name front t) hint = Backend.scalar t hint := by
  unfold without
  split
  next => rfl
  next => split <;> rfl
  next => rfl
  next => rfl

theorem child_without_of_ne {key first : Key} (h : first ≠ key) (rest : Path) (t : Tree L) :
    Backend.child (without name (key :: rest) t) first = Backend.child t first := by
  cases key with
  | name key =>
      cases t with
      | object fields =>
          cases hf : List.lookup key fields with
          | none => rw [without, hf]
          | some a => rw [without_field hf, child_object_put h]
      | _ => rfl
  | index i =>
      cases t with
      | array items =>
          cases first with
          | name name => rfl
          | index j =>
              have hne : i ≠ j := fun he => h (congrArg Key.index he.symm)
              exact congrArg Except.ok (List.getElem?_modify_ne _ _ hne)
      | _ => rfl

theorem child_without_self (key : Key) (rest : Path) (t : Tree L) :
    Backend.child (without name (key :: rest) t) key =
      (Backend.child t key).map (Option.map (without name rest)) := by
  cases key with
  | name key =>
      cases t with
      | object fields =>
          show _ = Except.ok ((List.lookup key fields).map _)
          cases hf : List.lookup key fields with
          | none =>
              rw [without, hf]
              exact congrArg Except.ok hf
          | some a =>
              rw [without_field hf]
              exact congrArg Except.ok (Fields.lookup_put_self _ _ _)
      | _ => rfl
  | index i =>
      cases t with
      | array items => exact congrArg Except.ok (List.getElem?_modify_eq _ _ _)
      | _ => rfl

theorem get_without_of_diverge (h : front.Diverge path) :
    Backend.get (without name front t) path = Backend.get t path := by
  induction front generalizing t path with
  | nil => exact absurd h.symm Path.not_diverge_nil
  | cons key front ih =>
      refine Backend.get_of_diverge h (fun below _ hbelow => ?_) fun first below _ hk => ?_
      · rw [Backend.get, Backend.get, child_without_self]
        rcases Backend.child t key with fault | _ | next
        · rfl
        · rfl
        · exact congrArg (Except.mapError _) (ih hbelow)
      · exact child_without_of_ne hk front t

theorem get_without_of_get {w : Tree L} (h : Backend.get t path = .ok (some w)) (rest : Path) :
    Backend.get (without name (path ++ rest) t) path = .ok (some (without name rest w)) := by
  induction path generalizing t with
  | nil =>
      cases h
      rfl
  | cons key path ih =>
      obtain ⟨next, hnext, hbelow⟩ := Backend.get_cons_eq_some.1 h
      refine Backend.get_cons_eq_some.2 ⟨without name (path ++ rest) next, ?_, ih hbelow⟩
      rw [List.cons_append, child_without_self, hnext]
      rfl

theorem get_without_append {fields : List (String × Tree L)}
    (h : Backend.get t front = .ok (some (.object fields))) (rest : Path) :
    Backend.get (t.without name front) (front ++ rest) =
      (Backend.get (Tree.object (Fields.erase name fields)) rest).mapError
        (Error.within front) := by
  have hobject : Backend.get (t.without name (front ++ [])) front =
      .ok (some (.object (Fields.erase name fields))) := get_without_of_get h []
  rw [List.append_nil] at hobject
  exact Backend.get_append hobject rest

theorem object_of_get {x : Tree L} (h : Backend.get t (front ++ [.name name]) = .ok (some x)) :
    ∃ fields, Backend.get t front = .ok (some (.object fields)) := by
  obtain ⟨w, hw, hname⟩ := Backend.get_append_eq_some.1 h
  obtain ⟨next, hx, -⟩ := Backend.get_cons_eq_some.1 hname
  cases w with
  | object fields => exact ⟨fields, hw⟩
  | _ => cases hx

end Tree

namespace Reader

variable {S α κ : Type} [Backend S] [KeySpace κ]

/-- Both ways of reading a path give the same on two nodes, errors included. -/
structure Agrees (r : Reader S α) (keys : List κ) (a b : S) : Prop where
  require : r.require keys a = r.require keys b
  optional : r.optional keys a = r.optional keys b

variable {r : Reader S α} {keys : List κ} {a b : S}

theorem optional_of_none (h : Backend.get a (KeySpace.path keys) = .ok none) :
    r.optional keys a = .ok none := by
  rw [optional, Mapper.optional_of_none h]
  rfl

theorem require_of_error {e : Error} (h : Backend.get a (KeySpace.path keys) = .error e) :
    r.require keys a = .error e := by
  rw [require, Mapper.required, Mapper.optional_of_error h]
  rfl

theorem optional_of_error {e : Error} (h : Backend.get a (KeySpace.path keys) = .error e) :
    r.optional keys a = .error e := by
  rw [optional, Mapper.optional_of_error h]
  rfl

theorem agrees_of_get_eq
    (h : Backend.get a (KeySpace.path keys) = Backend.get b (KeySpace.path keys)) :
    r.Agrees keys a b := by
  have hfound : Mapper.optional r.absent keys a = Mapper.optional r.absent keys b := by
    rw [Mapper.optional, Mapper.optional, h]
  constructor
  · rw [require, require, Mapper.required, Mapper.required, hfound]
  · rw [optional, optional, hfound]

theorem agrees_of_some {v w : S} (hv : Backend.get a (KeySpace.path keys) = .ok (some v))
    (hw : Backend.get b (KeySpace.path keys) = .ok (some w)) (habsent : r.absent v = r.absent w)
    (hread : r.read v = r.read w) : r.Agrees keys a b where
  require := by rw [require_of_some hv, require_of_some hw, habsent, hread]
  optional := by rw [optional_of_some hv, optional_of_some hw, habsent, hread]

theorem agrees_of_absent {v : S} (hv : Backend.get a (KeySpace.path keys) = .ok (some v))
    (habsent : r.absent v = true) (hb : Backend.get b (KeySpace.path keys) = .ok none) :
    r.Agrees keys a b where
  require := by rw [require_of_some hv, if_pos habsent, require_of_none hb]
  optional := by rw [optional_of_some hv, if_pos habsent, optional_of_none hb]

end Reader

section Removal

variable {κ : Type} [KeySpace κ] {t : Value} {front : Path} {name : String} {keys : List κ}

theorem Reader.prim_agrees_before {w : Value} {rest : Path} (p : Primitive)
    (hw : Backend.get t (KeySpace.path keys) = .ok (some w))
    (hrest : KeySpace.path keys ++ rest = front) :
    (Reader.prim p).Agrees keys t (t.without name front) := by
  subst hrest
  refine Reader.agrees_of_some hw (Tree.get_without_of_get hw rest) ?_ ?_
  · show (Backend.kind w == .null) = (Backend.kind (w.without name rest) == .null)
    rw [Tree.kind_without]
  · show (readLeaf p w).mapError Error.root = (readLeaf p (w.without name rest)).mapError Error.root
    rw [readLeaf, readLeaf, Tree.scalar_without]

variable (h : Backend.get t (front ++ [.name name]) = .ok (some Value.null)) (p : Primitive)

include h

theorem get_without_null (rest : Path) :
    Backend.get (t.without name front) (front ++ .name name :: rest) = .ok none := by
  obtain ⟨fields, hobject⟩ := Tree.object_of_get h
  rw [Tree.get_without_append hobject,
    Tree.get_name_none (Fields.lookup_eq_none.2 (Fields.notMem_names_erase name fields))]
  rfl

theorem Reader.prim_agrees_unless_behind
    (hbehind : ∀ key rest, KeySpace.path keys ≠ front ++ .name name :: key :: rest) :
    (Reader.prim p).Agrees keys t (t.without name front) := by
  obtain ⟨fields, hobject⟩ := Tree.object_of_get h
  by_cases hd : front.Diverge (KeySpace.path keys)
  · exact Reader.agrees_of_get_eq (Tree.get_without_of_diverge hd).symm
  · rw [Path.Diverge, not_and_or, not_not, not_not] at hd
    rcases hd with ⟨rest, hrest⟩ | ⟨rest, hrest⟩
    · cases rest with
      | nil =>
          rw [List.append_nil] at hrest
          exact Reader.prim_agrees_before p (hrest ▸ hobject)
            ((List.append_nil _).trans hrest.symm)
      | cons key rest =>
          by_cases hk : key = .name name
          · subst hk
            cases rest with
            | nil => exact Reader.agrees_of_absent (hrest ▸ h) rfl (hrest ▸ get_without_null h [])
            | cons next rest => exact absurd hrest.symm (hbehind next rest)
          · refine Reader.agrees_of_get_eq ?_
            rw [← hrest, Backend.get_append hobject, Tree.get_without_append hobject,
              Backend.get, Backend.get, Tree.child_object_erase hk]
    · rw [← hrest] at hobject
      obtain ⟨w, hw, -⟩ := Backend.get_append_eq_some.1 hobject
      exact Reader.prim_agrees_before p hw hrest

theorem remove_null {names : List String} (hfront : front = names.map .name) :
    Backend.remove (front ++ [.name name]) t = .ok (t.without name front) := by
  obtain ⟨fields, hobject⟩ := Tree.object_of_get h
  obtain ⟨t', ht'⟩ := Tree.exists_remove_of_removable (t := t)
    ⟨names, name, fields, congrArg (· ++ [Key.name name]) hfront, hfront ▸ hobject⟩
  rw [ht', Tree.eq_without_of_remove ht']

theorem get_behind_null (key : Key) (rest : Path) :
    Backend.get t (front ++ .name name :: key :: rest) =
      .error ⟨key.mismatch .null, front ++ [.name name, key]⟩ := by
  have hkey : Backend.child Value.null key = .error (key.mismatch .null) := by
    cases key <;> rfl
  rw [List.append_cons, Backend.get_through_refused h hkey rest, List.append_assoc]
  rfl

end Removal

/-- A field that holds null reads as one that is not there, at every path but those that go on
behind it. These are refused at the first key behind the null, and find nothing once the field is
gone. -/
theorem null_reads_as_absent {κ : Type} [KeySpace κ] {t : Value} {front : Path} {name : String}
    (h : Backend.get t (front ++ [.name name]) = .ok (some Value.null)) (p : Primitive)
    (keys : List κ) :
    ((∀ key rest, KeySpace.path keys ≠ front ++ .name name :: key :: rest) →
      (Reader.prim p).Agrees keys t (t.without name front)) ∧
    (∀ key rest, KeySpace.path keys = front ++ .name name :: key :: rest →
      (Reader.prim p).require keys t = .error ⟨key.mismatch .null, front ++ [.name name, key]⟩ ∧
      (Reader.prim p).optional keys t = .error ⟨key.mismatch .null, front ++ [.name name, key]⟩ ∧
      (Reader.prim p).require keys (t.without name front) =
        .error ⟨.valueNotFound, KeySpace.path keys⟩ ∧
      (Reader.prim p).optional keys (t.without name front) = .ok none) ∧
    (∀ t', Backend.remove (front ++ [.name name]) t = .ok t' → t' = t.without name front) ∧
    ∀ names : List String, front = names.map .name →
      Backend.remove (front ++ [.name name]) t = .ok (t.without name front) := by
  refine ⟨Reader.prim_agrees_unless_behind h p, ?_, fun t' => Tree.eq_without_of_remove,
    fun names => remove_null h⟩
  intro key rest hpath
  have hrefused := get_behind_null h key rest
  have hgone := get_without_null h (key :: rest)
  rw [← hpath] at hrefused hgone
  exact ⟨Reader.require_of_error hrefused, Reader.optional_of_error hrefused,
    Reader.require_of_none hgone, Reader.optional_of_none hgone⟩

theorem null_reads_as_absent_in_item :
    let t : Value := .object [("a", .array [.object [("b", Value.null), ("c", Value.int 1)]])]
    let gone : Value := .object [("a", .array [.object [("c", Value.int 1)]])]
    let key (k : String) : List Key := [.name "a", .index 0, .name k]
    Backend.get t (key "b") = .ok (some Value.null) ∧
      (Reader.prim .bool).Agrees (key "b") t gone ∧ (Reader.prim .bool).Agrees (key "c") t gone ∧
      (Reader.prim .bool).require (key "b" ++ [.name "c"]) t =
        .error ⟨.typeMismatch "object" .null, key "b" ++ [.name "c"]⟩ := by
  intro t gone key
  have h : Backend.get t ([.name "a", .index 0] ++ [.name "b"]) = .ok (some Value.null) := rfl
  have law (keys : List Key) := null_reads_as_absent h .bool keys
  refine ⟨h, (law (key "b")).1 ?_, (law (key "c")).1 ?_,
    ((law (key "b" ++ [.name "c"])).2.1 (.name "c") [] rfl).1⟩
  · intro next rest heq
    simp [KeySpace.path, KeySpace.key, key] at heq
  · intro next rest heq
    simp [KeySpace.path, KeySpace.key, key] at heq

/-- Behind a null there is a mismatch, and behind a missing field nothing. -/
theorem null_differs_behind :
    let t : Value := .object [("a", Value.null)]
    Backend.get t [.name "a"] = .ok (some Value.null) ∧
      Backend.remove [.name "a"] t = .ok (.object []) ∧
      (Reader.prim .bool).optional ["a", "b"] t ≠
        (Reader.prim .bool).optional ["a", "b"] (Tree.object [] : Value) :=
  ⟨rfl, rfl, nofun⟩

end DataTree
