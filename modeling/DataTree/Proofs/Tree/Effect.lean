import DataTree.Proofs.Tree.PathLaw
import DataTree.Proofs.Tree.Shape

namespace DataTree.Tree

open Backend (setAt emptyFor)

variable {L : Type}

namespace Shapes

def absent : Shapes L := fun _ => none

def below (s : Shapes L) (key : Key) : Shapes L := fun rest => s (key :: rest)

def overwrite (x : Tree L) (merge : Bool) (s : Shapes L) : Shapes L := fun path =>
  match merge, s [], x with
  | true, some .object, .object news =>
    match path with
    | [] => some .object
    | key :: rest =>
      if (shapeAt (.object news) [key]).isSome then shapeAt (.object news) (key :: rest)
      else s (key :: rest)
  | _, _, x => shapeAt x path

/-- The shapes after a node was stored at a path. What is missing on the way becomes an object. -/
def write (x : Tree L) (merge : Bool) : Path → Shapes L → Shapes L
  | [], s => s.overwrite x merge
  | key :: rest, s => fun path =>
    match path with
    | [] => some ((s []).getD .object)
    | first :: more =>
      if first = key then write x merge rest (s.below key) more else s (first :: more)

/-- What a key of a path that is written to asks of the node it comes to: an object for a name, or
nothing yet, and an array with the item for an index. -/
def Opens : Key → Option (Shape L) → Prop
  | .name _, found => found = some .object ∨ found = none
  | .index i, found => ∃ length, found = some (.array length) ∧ i < length

def Admits : Path → Shapes L → Prop
  | [], _ => True
  | key :: rest, s => Opens key (s []) ∧ Admits rest (s.below key)

variable {x y : Tree L} {merge : Bool} {path other : Path} {s : Shapes L}

theorem overwrite_object (news : List (String × Tree L)) (h : s [] = some .object) :
    s.overwrite (.object news) true = fun path =>
      match path with
      | [] => some .object
      | key :: rest =>
        if (shapeAt (.object news) [key]).isSome then shapeAt (.object news) (key :: rest)
        else s (key :: rest) := by
  funext path
  simp only [overwrite, h]

theorem overwrite_eq_shapeAt
    (h : ¬ (merge = true ∧ s [] = some .object ∧ ∃ news, x = .object news)) :
    s.overwrite x merge = shapeAt x := by
  funext path
  unfold overwrite
  split
  next hs => exact absurd ⟨rfl, hs, _, rfl⟩ h
  next => rfl

theorem overwrite_overwrite :
    (s.overwrite x merge).overwrite x merge = s.overwrite x merge := by
  by_cases h : merge = true ∧ s [] = some .object ∧ ∃ news, x = .object news
  · obtain ⟨rfl, hs, news, rfl⟩ := h
    rw [overwrite_object news (s := s.overwrite _ _) (by rw [overwrite_object news hs]),
      overwrite_object news hs]
    funext path
    cases path with
    | nil => rfl
    | cons key rest =>
        dsimp only
        split <;> rfl
  · rw [overwrite_eq_shapeAt h]
    by_cases h' : merge = true ∧ shapeAt x [] = some .object ∧ ∃ news, x = .object news
    · obtain ⟨rfl, hs, news, rfl⟩ := h'
      rw [overwrite_object news hs]
      funext path
      cases path with
      | nil => rfl
      | cons key rest => exact ite_self _
    · rw [overwrite_eq_shapeAt h']

@[simp] theorem below_write_self (key : Key) :
    (s.write x merge (key :: path)).below key = (s.below key).write x merge path := by
  funext rest
  exact if_pos rfl

@[simp] theorem below_write_of_ne {key first : Key} (h : first ≠ key) :
    (s.write x merge (key :: path)).below first = s.below first := by
  funext rest
  exact if_neg h

theorem ext_below {s t : Shapes L} (hroot : s [] = t [])
    (hbelow : ∀ key, s.below key = t.below key) : s = t := by
  funext path
  cases path with
  | nil => exact hroot
  | cons key rest => exact congrFun (hbelow key) rest

theorem write_write_self :
    (s.write x merge path).write x merge path = s.write x merge path := by
  induction path generalizing s with
  | nil => exact overwrite_overwrite
  | cons key rest ih =>
      refine ext_below rfl fun first => ?_
      by_cases h : first = key
      · subst h
        rw [below_write_self, below_write_self, ih]
      · rw [below_write_of_ne h]

theorem write_comm {merge' : Bool} (h : path.Diverge other) :
    (s.write x merge path).write y merge' other = (s.write y merge' other).write x merge path := by
  induction path generalizing s other with
  | nil => exact absurd h.symm Path.not_diverge_nil
  | cons key rest ih =>
      cases other with
      | nil => exact absurd h Path.not_diverge_nil
      | cons key' rest' =>
          refine ext_below rfl fun first => ?_
          by_cases hk : first = key
          · subst hk
            by_cases hk' : first = key'
            · subst hk'
              simp only [below_write_self, ih (Path.diverge_cons_self.1 h)]
            · rw [below_write_of_ne hk', below_write_self, below_write_self,
                below_write_of_ne hk']
          · rw [below_write_of_ne hk]
            by_cases hk' : first = key'
            · subst hk'
              rw [below_write_self, below_write_self, below_write_of_ne hk]
            · rw [below_write_of_ne hk', below_write_of_ne hk', below_write_of_ne hk]

theorem opens_getD {key : Key} {found : Option (Shape L)} :
    Opens key (some (found.getD .object)) ↔ Opens key found := by
  cases key <;> cases found <;> simp [Opens]

theorem admits_write_of_diverge (h : path.Diverge other) :
    Admits other (s.write x merge path) ↔ Admits other s := by
  induction path generalizing s other with
  | nil => exact absurd h.symm Path.not_diverge_nil
  | cons key rest ih =>
      cases other with
      | nil => exact Iff.rfl
      | cons first more =>
          refine and_congr opens_getD ?_
          by_cases hk : first = key
          · subst hk
            rw [below_write_self, ih (Path.diverge_cons_self.1 h)]
          · rw [below_write_of_ne hk]

theorem admits_write_self (h : Admits path s) : Admits path (s.write x merge path) := by
  induction path generalizing s with
  | nil => trivial
  | cons key rest ih =>
      refine ⟨opens_getD.2 h.1, ?_⟩
      rw [below_write_self]
      exact ih h.2

theorem below_shapeAt_empty (key : Key) :
    (shapeAt (.object [] : Tree L)).below key = absent.below key :=
  funext (shapeAt_empty key)

theorem write_empty (key : Key) (rest : Path) :
    (shapeAt (.object [])).write x merge (key :: rest) = absent.write x merge (key :: rest) := by
  refine ext_below rfl fun first => ?_
  by_cases h : first = key
  · subst h
    rw [below_write_self, below_write_self, below_shapeAt_empty]
  · rw [below_write_of_ne h, below_write_of_ne h, below_shapeAt_empty]

theorem admits_empty {name : String} {rest : Path} :
    Admits (.name name :: rest) (shapeAt (.object [] : Tree L)) ↔
      Admits (.name name :: rest) (absent : Shapes L) := by
  rw [Admits, Admits, below_shapeAt_empty]
  exact and_congr (iff_of_true (.inl rfl) (.inr rfl)) Iff.rfl

end Shapes

variable [Leaf L] {x t t' : Tree L} {merge : Bool} {path : Path}

omit [Leaf L] in
theorem below_item {items : List (Tree L)} {i : Nat} {a : Tree L} (h : items[i]? = some a) :
    Shapes.below (shapeAt (.array items)) (.index i) = shapeAt a := by
  funext rest
  rw [Shapes.below, shapeAt_index, h]
  rfl

omit [Leaf L] in
theorem below_field {fields : List (String × Tree L)} {name : String} {a : Tree L}
    (h : List.lookup name fields = some a) :
    Shapes.below (shapeAt (.object fields)) (.name name) = shapeAt a := by
  funext rest
  rw [Shapes.below, shapeAt_name, h]
  rfl

omit [Leaf L] in
theorem below_missing {fields : List (String × Tree L)} {name : String}
    (h : name ∉ Fields.names fields) :
    Shapes.below (shapeAt (.object fields)) (.name name) = Shapes.absent := by
  funext rest
  rw [Shapes.below, shapeAt_name, Fields.lookup_eq_none.2 h]
  rfl

omit [Leaf L] in
theorem shapeAt_stored (hx : x.Distinct) (t : Tree L) :
    shapeAt (stored merge x t) = (shapeAt t).overwrite x merge := by
  by_cases h : merge = true ∧ shapeAt t [] = some .object ∧ ∃ news, x = .object news
  · obtain ⟨rfl, ht, news, rfl⟩ := h
    rw [Shapes.overwrite_object news ht]
    cases t with
    | object fields =>
        refine Shapes.ext_below rfl fun key => funext fun rest => ?_
        cases key with
        | index i => rfl
        | name name =>
            show shapeAt (.object (Fields.putAll news fields)) _ = ite _ _ _
            rw [shapeAt_name, shapeAt_name, shapeAt_name, shapeAt_name, Fields.lookup_putAll hx.1]
            cases List.lookup name news with
            | none => rfl
            | some a => rfl
    | _ => cases ht
  · rw [Shapes.overwrite_eq_shapeAt h]
    cases t with
    | object fields =>
        cases merge with
        | false => rfl
        | true =>
            cases x with
            | object news => exact absurd ⟨rfl, rfl, news, rfl⟩ h
            | _ => rfl
    | _ => rfl

omit [Leaf L] in
theorem shapeAt_put {fields : List (String × Tree L)} {name : String} {rest : Path} {b : Tree L}
    (hb : shapeAt b = (Shapes.below (shapeAt (.object fields)) (.name name)).write x merge rest) :
    shapeAt (.object (Fields.put name b fields)) =
      (shapeAt (.object fields)).write x merge (.name name :: rest) := by
  refine Shapes.ext_below rfl fun first => ?_
  by_cases h : first = .name name
  · subst h
    rw [Shapes.below_write_self, below_field (Fields.lookup_put_self name b fields), hb]
  · rw [Shapes.below_write_of_ne h]
    funext more
    cases first with
    | index i => rfl
    | name other =>
        have hne : other ≠ name := fun he => h (congrArg Key.name he)
        rw [Shapes.below, Shapes.below, shapeAt_name, shapeAt_name, Fields.lookup_put_of_ne hne]

omit [Leaf L] in
theorem Written.shapeAt_eq (hx : x.Distinct) (w : Written x merge path t t') :
    shapeAt t' = (shapeAt t).write x merge path := by
  induction w with
  | target => exact shapeAt_stored hx _
  | @item items i rest a b hi _ ih =>
      have hlt : i < items.length := (List.getElem?_eq_some_iff.1 hi).1
      refine Shapes.ext_below ?_ fun first => ?_
      · show some (Shape.array (items.set i b).length) = some (Shape.array items.length)
        rw [List.length_set]
      · by_cases h : first = .index i
        · subst h
          rw [Shapes.below_write_self, below_item (List.getElem?_set_self hlt), below_item hi, ih]
        · rw [Shapes.below_write_of_ne h]
          funext more
          cases first with
          | name name => rfl
          | index j =>
              have hne : i ≠ j := fun he => h (congrArg Key.index he.symm)
              rw [Shapes.below, Shapes.below, shapeAt_index, shapeAt_index,
                List.getElem?_set_ne hne]
  | field hf _ ih => exact shapeAt_put (by rw [below_field hf, ih])
  | fresh hn =>
      refine shapeAt_put ?_
      rw [below_missing hn]
      exact (Shapes.overwrite_eq_shapeAt (by simp [Shapes.absent])).symm
  | branch hn _ ih => exact shapeAt_put (by rw [below_missing hn, ih, Shapes.write_empty])

omit [Leaf L] in
theorem exists_edit {slot : Slot (Tree L)} {key : Key} {change : EStateM Error (Tree L) Unit} :
    (∃ t', slot.edit key change = .ok () t') ↔ ∃ node, change slot.node = .ok () node := by
  constructor
  · rintro ⟨t', h⟩
    obtain ⟨node, hnode, -⟩ := Slot.edit_ok h
    exact ⟨node, hnode⟩
  · rintro ⟨node, h⟩
    exact ⟨slot.refill node, by rw [Slot.edit, h]⟩

theorem exists_setAt_branch {fields : List (String × Tree L)} {name : String}
    (h : name ∉ Fields.names fields) {next : Key} {rest : Path} :
    (∃ t', setAt x merge (.name name :: next :: rest) (.object fields) = .ok () t') ↔
      ∃ b, setAt x merge (next :: rest) (emptyFor next) = .ok () b := by
  rw [setAt_branch x merge h]
  cases setAt x merge (next :: rest) (emptyFor next : Tree L) with
  | ok _ b => exact iff_of_true ⟨_, rfl⟩ ⟨b, rfl⟩
  | error e b => exact iff_of_false nofun nofun

theorem exists_setAt_iff (hx : x.Distinct) :
    (∃ t', setAt x merge path t = .ok () t') ↔ Shapes.Admits path (shapeAt t) := by
  induction path generalizing t with
  | nil => exact iff_of_true ⟨_, setAt_target hx merge t⟩ trivial
  | cons key rest ih =>
      cases key with
      | index i =>
          cases t with
          | array items =>
              cases hi : items[i]? with
              | none =>
                  rw [setAt_outOfBounds x merge hi]
                  refine iff_of_false nofun fun h => ?_
                  obtain ⟨length, hlength, hlt⟩ := h.1
                  cases hlength
                  exact absurd hlt (Nat.not_lt.2 (List.getElem?_eq_none_iff.1 hi))
              | some a =>
                  have hlt : i < items.length := (List.getElem?_eq_some_iff.1 hi).1
                  rw [setAt_item x merge hi, exists_edit, ih, Shapes.Admits, below_item hi]
                  exact (and_iff_right ⟨_, rfl, hlt⟩).symm
          | _ =>
              refine iff_of_false nofun fun h => ?_
              obtain ⟨length, hlength, -⟩ := h.1
              cases hlength
      | name name =>
          cases t with
          | object fields =>
              have hopens : Shapes.Opens (.name name) (shapeAt (.object fields) []) := .inl rfl
              cases hf : List.lookup name fields with
              | some a =>
                  rw [setAt_field x merge hf, exists_edit, ih, Shapes.Admits, below_field hf]
                  exact (and_iff_right hopens).symm
              | none =>
                  have hn := Fields.lookup_eq_none.1 hf
                  rw [Shapes.Admits, below_missing hn, and_iff_right hopens]
                  cases rest with
                  | nil => exact iff_of_true ⟨_, setAt_fresh x merge hn⟩ trivial
                  | cons next rest =>
                      rw [exists_setAt_branch hn]
                      cases next with
                      | index i =>
                          -- the array that is made for an index has no items
                          refine iff_of_false nofun fun h => ?_
                          obtain ⟨length, hlength, -⟩ := h.1
                          cases hlength
                      | name next => exact ih.trans Shapes.admits_empty
          | _ =>
              refine iff_of_false nofun fun h => ?_
              rcases h.1 with hroot | hroot <;> cases hroot

end DataTree.Tree
