import DataTree.Proofs.Tree.Hereditary
import DataTree.Key

namespace DataTree.Tree

variable {L : Type}

mutual

/-- The same data, with the fields of every object in any order. -/
def Reordered : Tree L → Tree L → Prop
  | .leaf x, .leaf y => x = y
  | .array xs, .array ys => ReorderedItems xs ys
  | .object xs, .object ys => (Fields.names xs).Perm (Fields.names ys) ∧ ReorderedFields xs ys
  | _, _ => False

def ReorderedItems : List (Tree L) → List (Tree L) → Prop
  | [], [] => True
  | x :: xs, y :: ys => x.Reordered y ∧ ReorderedItems xs ys
  | _, _ => False

def ReorderedFields : List (String × Tree L) → List (String × Tree L) → Prop
  | [], _ => True
  | (name, x) :: rest, others =>
    (∃ y, List.lookup name others = some y ∧ x.Reordered y) ∧ ReorderedFields rest others

end

theorem reorderedItems_iff {xs ys : List (Tree L)} :
    ReorderedItems xs ys ↔ xs.length = ys.length ∧
      ∀ (i : Nat) (x y : Tree L), xs[i]? = some x → ys[i]? = some y → x.Reordered y := by
  induction xs generalizing ys with
  | nil => cases ys <;> simp [ReorderedItems]
  | cons x xs ih =>
      cases ys with
      | nil => simp [ReorderedItems]
      | cons y ys =>
          rw [ReorderedItems, ih, List.length_cons, List.length_cons, Nat.add_right_cancel_iff]
          constructor
          · rintro ⟨hfirst, hlength, hrest⟩
            refine ⟨hlength, fun i a b ha hb => ?_⟩
            cases i with
            | zero =>
                cases ha
                cases hb
                exact hfirst
            | succ i => exact hrest i a b ha hb
          · rintro ⟨hlength, hall⟩
            exact ⟨hall 0 x y rfl rfl, hlength, fun i a b => hall (i + 1) a b⟩

theorem reorderedFields_iff {fields others : List (String × Tree L)} :
    ReorderedFields fields others ↔
      ∀ field ∈ fields, ∃ y, List.lookup field.1 others = some y ∧ field.2.Reordered y := by
  induction fields with
  | nil => simp [ReorderedFields]
  | cons field rest ih => simp [ReorderedFields, ih]

/-- What a node is, whatever lies below it. -/
inductive Shape (L : Type)
  | leaf (x : L)
  | array (length : Nat)
  | object

def shape : Tree L → Shape L
  | .leaf x => .leaf x
  | .array items => .array items.length
  | .object _ => .object

abbrev Shapes (L : Type) := Path → Option (Shape L)

def shapeAt (t : Tree L) : Shapes L
  | [] => some t.shape
  | .index i :: rest =>
    match t with
    | .array items => items[i]?.bind fun x => shapeAt x rest
    | _ => none
  | .name name :: rest =>
    match t with
    | .object fields => (List.lookup name fields).bind fun x => shapeAt x rest
    | _ => none

@[simp] theorem shapeAt_index (items : List (Tree L)) (i : Nat) (rest : Path) :
    shapeAt (.array items) (.index i :: rest) = items[i]?.bind fun x => shapeAt x rest := rfl

@[simp] theorem shapeAt_name (fields : List (String × Tree L)) (name : String) (rest : Path) :
    shapeAt (.object fields) (.name name :: rest) =
      (List.lookup name fields).bind fun x => shapeAt x rest := rfl

theorem shapeAt_empty (key : Key) (rest : Path) :
    shapeAt (.object [] : Tree L) (key :: rest) = none := by
  cases key <;> rfl

theorem mem_names_iff_shapeAt {fields : List (String × Tree L)} {name : String} :
    name ∈ Fields.names fields ↔ (shapeAt (.object fields) [.name name]).isSome = true := by
  rw [shapeAt_name]
  cases h : List.lookup name fields with
  | none => simp [Fields.lookup_eq_none.1 h]
  | some x => simp [Fields.mem_names_of_lookup h, shapeAt]

theorem reordered_of_shapeAt_eq {t u : Tree L} (ht : t.Distinct) (hu : u.Distinct)
    (h : shapeAt t = shapeAt u) : t.Reordered u := by
  induction t using ind generalizing u with
  | leaf x =>
      have hroot := Option.some.inj (congrFun h [])
      cases u with
      | leaf y =>
          cases hroot
          rw [Reordered]
      | _ => cases hroot
  | array items ih =>
      have hroot := Option.some.inj (congrFun h [])
      cases u with
      | array others =>
          rw [Reordered, reorderedItems_iff]
          refine ⟨Shape.array.inj hroot, fun i x y hx hy => ?_⟩
          refine ih x (List.mem_of_getElem? hx)
            (hereditary_distinct.item ht (List.mem_of_getElem? hx))
            (hereditary_distinct.item hu (List.mem_of_getElem? hy)) (funext fun rest => ?_)
          have hbelow := congrFun h (.index i :: rest)
          rwa [shapeAt_index, shapeAt_index, hx, hy] at hbelow
      | _ => cases hroot
  | object fields ih =>
      have hroot := Option.some.inj (congrFun h [])
      cases u with
      | object others =>
          have hnames (name : String) :
              name ∈ Fields.names fields ↔ name ∈ Fields.names others := by
            rw [mem_names_iff_shapeAt, mem_names_iff_shapeAt, h]
          rw [Reordered, reorderedFields_iff]
          refine ⟨(List.perm_ext_iff_of_nodup ht.1 hu.1).2 hnames, fun field hf => ?_⟩
          obtain ⟨name, x⟩ := field
          have hx : List.lookup name fields = some x := Fields.lookup_of_mem ht.1 hf
          cases hy : List.lookup name others with
          | none =>
              have hname := (hnames name).1 (Fields.mem_names_of_lookup hx)
              exact absurd hname (Fields.lookup_eq_none.1 hy)
          | some y =>
              refine ⟨y, rfl, ih _ hf (hereditary_distinct.field ht hf)
                (hereditary_distinct.find hu hy) (funext fun rest => ?_)⟩
              have hbelow := congrFun h (.name name :: rest)
              rwa [shapeAt_name, shapeAt_name, hx, hy] at hbelow
      | _ => cases hroot

end DataTree.Tree
