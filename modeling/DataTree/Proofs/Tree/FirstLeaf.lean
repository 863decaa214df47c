import DataTree.Proofs.Backend.FirstFailure
import DataTree.Proofs.Tree.Traversal

namespace DataTree.Tree

open Backend (Before Precedes)

variable {L M : Type}

section Order

variable [Leaf L] {t : Tree L}

theorem mem_takeWhile_ne_total {α : Type} [DecidableEq α] {a b : α} (hne : a ≠ b) {xs : List α}
    (ha : a ∈ xs) (hb : b ∈ xs) : a ∈ xs.takeWhile (· ≠ b) ∨ b ∈ xs.takeWhile (· ≠ a) := by
  induction xs with
  | nil => cases ha
  | cons x xs ih =>
      by_cases hxa : x = a
      · subst hxa
        simp [hne]
      · by_cases hxb : x = b
        · subst hxb
          simp [hxa]
        · have hrest := ih ((List.mem_cons.1 ha).resolve_left (Ne.symm hxa))
            ((List.mem_cons.1 hb).resolve_left (Ne.symm hxb))
          simpa [hxa, hxb, Ne.symm hxa, Ne.symm hxb] using hrest

theorem before_total {key key' : Key} (hne : key ≠ key') {a b : Tree L}
    (ha : Backend.child t key = .ok (some a)) (hb : Backend.child t key' = .ok (some b)) :
    Before t key key' ∨ Before t key' key := by
  cases t with
  | leaf x => cases key <;> cases ha
  | array items =>
      cases key with
      | name name => cases ha
      | index i =>
          cases key' with
          | name name => cases hb
          | index j =>
              have hij : i ≠ j := fun h => hne (congrArg Key.index h)
              exact Nat.lt_or_gt_of_ne hij
  | object fields =>
      cases key with
      | index i => cases ha
      | name name =>
          cases key' with
          | index j => cases hb
          | name name' =>
              have hnames : name ≠ name' := fun h => hne (congrArg Key.name h)
              exact mem_takeWhile_ne_total hnames
                (Fields.mem_names_of_lookup (Except.ok.inj ha))
                (Fields.mem_names_of_lookup (Except.ok.inj hb))

theorem precedes_below {key : Key} {next : Tree L} {path path' : Path}
    (hnext : Backend.child t key = .ok (some next)) (h : Precedes next path path') :
    Precedes t (key :: path) (key :: path') := by
  obtain ⟨front, parent, first, last, hget, hbefore, hfirst, hlast⟩ := h
  exact ⟨key :: front, parent, first, last, Backend.get_cons_eq_some.2 ⟨next, hnext, hget⟩, hbefore,
    List.cons_prefix_cons.2 ⟨rfl, hfirst⟩, List.cons_prefix_cons.2 ⟨rfl, hlast⟩⟩

theorem precedes_total {path path' : Path} {x y : L}
    (h : Backend.get t path = .ok (some (.leaf x)))
    (h' : Backend.get t path' = .ok (some (.leaf y))) :
    path = path' ∨ Precedes t path path' ∨ Precedes t path' path := by
  induction path generalizing t path' with
  | nil =>
      cases h
      cases path' with
      | nil => exact .inl rfl
      | cons key rest => cases key <;> cases h'
  | cons key rest ih =>
      cases path' with
      | nil =>
          cases h'
          cases key <;> cases h
      | cons key' rest' =>
          obtain ⟨a, ha, hbelow⟩ := Backend.get_cons_eq_some.1 h
          obtain ⟨b, hb, hbelow'⟩ := Backend.get_cons_eq_some.1 h'
          by_cases hkey : key = key'
          · subst hkey
            obtain rfl : a = b := by simpa using ha.symm.trans hb
            rcases ih hbelow hbelow' with rfl | hfirst | hlast
            · exact .inl rfl
            · exact .inr (.inl (precedes_below ha hfirst))
            · exact .inr (.inr (precedes_below ha hlast))
          · rcases before_total hkey ha hb with hbefore | hbefore
            · exact .inr (.inl ⟨[], t, key, key', rfl, hbefore, ⟨rest, rfl⟩, ⟨rest', rfl⟩⟩)
            · exact .inr (.inr ⟨[], t, key', key, rfl, hbefore, ⟨rest', rfl⟩, ⟨rest, rfl⟩⟩)

/-- The leaf at the path is one of a kind, and no such leaf comes before it. -/
structure FirstLeaf (p : L → Prop) (t : Tree L) (path : Path) (x : L) : Prop where
  found : Backend.get t path = .ok (some (.leaf x))
  holds : p x
  first : ∀ earlier y, Precedes t earlier path →
    Backend.get t earlier = .ok (some (.leaf y)) → ¬ p y

theorem FirstLeaf.unique {p : L → Prop} {path path' : Path} {x y : L} (h : FirstLeaf p t path x)
    (h' : FirstLeaf p t path' y) : path = path' ∧ x = y := by
  rcases precedes_total h.found h'.found with rfl | hbefore | hbefore
  · exact ⟨rfl, by simpa using h.found.symm.trans h'.found⟩
  · exact absurd h.holds (h'.first path x hbefore h.found)
  · exact absurd h'.holds (h.first path' y hbefore h'.found)

theorem FirstLeaf.member {p : L → Prop} {key : Key} {next : Tree L} {path : Path} {x : L}
    (hnext : Backend.child t key = .ok (some next)) (h : FirstLeaf p next path x)
    (hbefore : ∀ earlier, Before t earlier key → ∀ inner,
      Backend.child t earlier = .ok (some inner) →
      ∀ back y, Backend.get inner back = .ok (some (.leaf y)) → ¬ p y) :
    FirstLeaf p t (key :: path) x where
  found := Backend.get_cons_eq_some.2 ⟨next, hnext, h.found⟩
  holds := h.holds
  first earlier y hearlier hy := by
    rcases Backend.precedes_cons hearlier with
      ⟨first, back, rfl, hfirst⟩ | ⟨next', back, rfl, hnext', hback⟩
    · obtain ⟨inner, hinner, hy⟩ := Backend.get_cons_eq_some.1 hy
      exact hbefore first hfirst inner hinner back y hy
    · obtain rfl : next = next' := by simpa using hnext.symm.trans hnext'
      obtain ⟨inner, hinner, hy⟩ := Backend.get_cons_eq_some.1 hy
      obtain rfl : next = inner := by simpa using hnext.symm.trans hinner
      exact h.first back y hback hy

end Order

section Failure

variable [Leaf L] {t : Tree L} {f : L → Except Fault M}

theorem ok_of_traverse {t' : Tree M} (h : traverse f t = .ok t') {path : Path} {x : L}
    (hx : Backend.get t path = .ok (some (.leaf x))) : ∃ y, f x = .ok y := by
  induction path generalizing t t' with
  | nil =>
      cases hx
      obtain ⟨y, hy, -⟩ := traverse_leaf_eq_ok.1 h
      exact ⟨y, hy⟩
  | cons key rest ih =>
      obtain ⟨next, hnext, hbelow⟩ := Backend.get_cons_eq_some.1 hx
      suffices hok : ∃ y, traverse f next = .ok y by
        obtain ⟨y, hy⟩ := hok
        exact ih hy hbelow
      cases t with
      | leaf x => cases key <;> cases hnext
      | array items =>
          rw [traverse_array] at h
          obtain ⟨nodes, hnodes, -⟩ := map_eq_ok.1 h
          cases key with
          | name name => cases hnext
          | index i =>
              exact ok_of_mem_eachItem hnodes (List.mem_of_getElem? (Except.ok.inj hnext))
      | object fields =>
          rw [traverse_object] at h
          obtain ⟨nodes, hnodes, -⟩ := map_eq_ok.1 h
          cases key with
          | index i => cases hnext
          | name name =>
              exact ok_of_mem_eachContent hnodes (Fields.mem_of_lookup (Except.ok.inj hnext))

theorem mem_front_of_before {front back : List (String × Tree L)} {name other : String}
    {x inner : Tree L} (hd : Fields.Distinct (front ++ (name, x) :: back))
    (hbefore : Before (object (front ++ (name, x) :: back)) (.name other) (.name name))
    (hinner : List.lookup other (front ++ (name, x) :: back) = some inner) :
    (other, inner) ∈ front := by
  have hlisted :
      other ∈ (Fields.names front ++ name :: Fields.names back).takeWhile (· ≠ name) := by
    rw [← Fields.names_cons (name, x), ← Fields.names_append]
    exact hbefore
  have hfront : other ∈ Fields.names front := by
    rw [List.takeWhile_append] at hlisted
    split at hlisted
    next => simpa using hlisted
    next => exact (List.takeWhile_sublist _).mem hlisted
  rw [Fields.Distinct, Fields.names_append] at hd
  refine (List.mem_append.1 (Fields.mem_of_lookup hinner)).resolve_right fun hback => ?_
  exact (List.nodup_append.1 hd).2.2 other hfront other (List.mem_map_of_mem hback) rfl

theorem firstLeaf_of_traverse (hd : t.Distinct) {e : Error} (h : traverse f t = .error e) :
    ∃ x, FirstLeaf (fun y => ∃ fault, f y = .error fault) t e.path x ∧ f x = .error e.fault := by
  -- what stands in a member that can be exchanged is none of the leaves in question
  have hpast {inner : Tree L} (hok : ∃ z, traverse f inner = .ok z) (back : Path) (y : L)
      (hy : Backend.get inner back = .ok (some (.leaf y))) : ¬ ∃ fault, f y = .error fault := by
    rintro ⟨fault, hfault⟩
    obtain ⟨z, hz⟩ := hok
    obtain ⟨w, hw⟩ := ok_of_traverse hz hy
    cases hw.symm.trans hfault
  induction t using ind generalizing e with
  | leaf x =>
      obtain ⟨fault, hx, rfl⟩ := traverse_leaf_eq_error.1 h
      exact ⟨x, ⟨rfl, ⟨fault, hx⟩,
        fun _ _ hearlier => absurd hearlier Backend.not_precedes_nil⟩, hx⟩
  | array items ih =>
      rw [traverse_array, map_eq_error] at h
      obtain ⟨front, inner, back, e', rfl, hfront, hinner, rfl⟩ := eachItem_eq_error h
      have hmem : inner ∈ front ++ inner :: back := List.mem_append_right _ List.mem_cons_self
      obtain ⟨x, hfirst, hx⟩ := ih inner hmem (hereditary_distinct.item hd hmem) hinner
      have hnext : Backend.child (Tree.array (front ++ inner :: back))
          (.index (0 + front.length)) = .ok (some inner) := by
        refine congrArg Except.ok ?_
        simp
      refine ⟨x, hfirst.member hnext fun earlier hearlier next hnext => hpast ?_, hx⟩
      cases earlier with
      | name name => cases hnext
      | index i =>
          have hlt : i < front.length := Nat.zero_add front.length ▸ hearlier
          have hitem : (front ++ inner :: back)[i]? = some next := Except.ok.inj hnext
          rw [List.getElem?_append_left hlt] at hitem
          exact hfront next (List.mem_of_getElem? hitem)
  | object fields ih =>
      rw [traverse_object, map_eq_error] at h
      obtain ⟨front, name, inner, back, e', rfl, hfront, hinner, rfl⟩ := eachContent_eq_error h
      have hmem : (name, inner) ∈ front ++ (name, inner) :: back :=
        List.mem_append_right _ List.mem_cons_self
      obtain ⟨x, hfirst, hx⟩ := ih (name, inner) hmem (hereditary_distinct.field hd hmem) hinner
      have hnext : Backend.child (Tree.object (front ++ (name, inner) :: back)) (.name name) =
          .ok (some inner) := congrArg Except.ok (Fields.lookup_of_mem hd.1 hmem)
      refine ⟨x, hfirst.member hnext fun earlier hearlier next hnext => hpast ?_, hx⟩
      cases earlier with
      | index i => cases hnext
      | name other =>
          exact hfront (other, next) (mem_front_of_before hd.1 hearlier (Except.ok.inj hnext))

theorem traverse_eq_error_iff (hd : t.Distinct) {e : Error} : traverse f t = .error e ↔
    ∃ x, FirstLeaf (fun y => ∃ fault, f y = .error fault) t e.path x ∧ f x = .error e.fault := by
  refine ⟨firstLeaf_of_traverse hd, fun ⟨x, hfirst, hx⟩ => ?_⟩
  cases h : traverse f t with
  | ok t' =>
      obtain ⟨y, hy⟩ := ok_of_traverse h hfirst.found
      cases hx.symm.trans hy
  | error e' =>
      obtain ⟨x', hfirst', hx'⟩ := firstLeaf_of_traverse hd h
      obtain ⟨hpath, rfl⟩ := hfirst.unique hfirst'
      have hfault : e.fault = e'.fault := Except.error.inj (hx.symm.trans hx')
      cases e
      cases e'
      cases hpath
      cases hfault
      rfl

/-- What becomes of the tree: an error if there is a leaf in it that is refused, and then the fault
that the first such leaf is refused with, at its path. -/
structure FailsAtFirst {β : Type} (refused : L → Fault → Prop) (t : Tree L)
    (outcome : Except Error β) : Prop where
  fails : (∃ e, outcome = .error e) ↔
    ∃ path x fault, Backend.get t path = .ok (some (.leaf x)) ∧ refused x fault
  first : ∀ fault path, outcome = .error ⟨fault, path⟩ ↔
    ∃ x, FirstLeaf (fun y => ∃ fault, refused y fault) t path x ∧ refused x fault

theorem failsAtFirst_traverse (hd : t.Distinct) {refused : L → Fault → Prop}
    (h : ∀ {x fault}, f x = .error fault ↔ refused x fault) :
    FailsAtFirst refused t (traverse f t) where
  fails := by
    constructor
    · rintro ⟨e, he⟩
      obtain ⟨x, hfirst, hx⟩ := (traverse_eq_error_iff hd).1 he
      exact ⟨e.path, x, e.fault, hfirst.found, h.1 hx⟩
    · rintro ⟨path, x, fault, hfound, hx⟩
      cases htree : traverse f t with
      | error e => exact ⟨e, rfl⟩
      | ok t' =>
          obtain ⟨y, hy⟩ := ok_of_traverse htree hfound
          cases (h.2 hx).symm.trans hy
  first fault path := by
    simp only [← h]
    exact traverse_eq_error_iff hd

end Failure

end DataTree.Tree
