import DataTree.Proofs.Fields
import DataTree.Tree

namespace DataTree.Tree

variable {L : Type}

theorem ind {motive : Tree L → Prop} (leaf : ∀ x, motive (.leaf x))
    (array : ∀ items, (∀ x ∈ items, motive x) → motive (.array items))
    (object : ∀ fields, (∀ field ∈ fields, motive field.2) → motive (.object fields)) :
    ∀ t, motive t
  | .leaf x => leaf x
  | .array items => array items fun x _ => ind leaf array object x
  | .object fields => object fields fun field _ => ind leaf array object field.2
decreasing_by
  · decreasing_tactic
  · have hlt := List.sizeOf_lt_of_mem (by assumption : field ∈ fields)
    obtain ⟨name, x⟩ := field
    simp only [Prod.mk.sizeOf_spec, Tree.object.sizeOf_spec] at hlt ⊢
    omega

mutual

def Every (p : L → Prop) : Tree L → Prop
  | .leaf x => p x
  | .array items => EveryItem p items
  | .object fields => EveryField p fields

def EveryItem (p : L → Prop) : List (Tree L) → Prop
  | [] => True
  | x :: xs => x.Every p ∧ EveryItem p xs

def EveryField (p : L → Prop) : List (String × Tree L) → Prop
  | [] => True
  | (_, x) :: rest => x.Every p ∧ EveryField p rest

end

theorem everyItem_iff {p : L → Prop} {items : List (Tree L)} :
    EveryItem p items ↔ ∀ x ∈ items, x.Every p := by
  induction items with
  | nil => simp [EveryItem]
  | cons x xs ih => simp [EveryItem, ih]

theorem everyField_iff {p : L → Prop} {fields : List (String × Tree L)} :
    EveryField p fields ↔ ∀ field ∈ fields, field.2.Every p := by
  induction fields with
  | nil => simp [EveryField]
  | cons field rest ih => simp [EveryField, ih]

theorem every_of_forall {p : L → Prop} (h : ∀ x, p x) (t : Tree L) : t.Every p := by
  induction t using ind with
  | leaf x => exact h x
  | array items ih => exact everyItem_iff.2 ih
  | object fields ih => exact everyField_iff.2 ih

theorem distinctItems_iff {items : List (Tree L)} :
    DistinctItems items ↔ ∀ x ∈ items, x.Distinct := by
  induction items with
  | nil => simp [DistinctItems]
  | cons x xs ih => simp [DistinctItems, ih]

theorem distinctFields_iff {fields : List (String × Tree L)} :
    DistinctFields fields ↔ ∀ field ∈ fields, field.2.Distinct := by
  induction fields with
  | nil => simp [DistinctFields]
  | cons field rest ih => simp [DistinctFields, ih]

/-- A property that goes from a tree to its items and fields, and back from these to the arrays and
objects that are made of them. -/
structure Hereditary (q : Tree L → Prop) : Prop where
  item : ∀ {items x}, q (.array items) → x ∈ items → q x
  array : ∀ {items}, (∀ x ∈ items, q x) → q (.array items)
  field : ∀ {fields field}, q (.object fields) → field ∈ fields → q field.2
  object : q (.object [])
  put : ∀ {fields name x}, q (.object fields) → q x → q (.object (Fields.put name x fields))
  erase : ∀ {fields name}, q (.object fields) → q (.object (Fields.erase name fields))

theorem hereditary_distinct : Hereditary (Distinct (L := L)) where
  item h hx := distinctItems_iff.1 h _ hx
  array h := distinctItems_iff.2 h
  field h hf := distinctFields_iff.1 h.2 _ hf
  object := ⟨Fields.distinct_nil, trivial⟩
  put h hx := by
    refine ⟨Fields.distinct_put _ _ h.1, distinctFields_iff.2 fun field hf => ?_⟩
    rcases Fields.mem_put hf with rfl | hf
    · exact hx
    · exact distinctFields_iff.1 h.2 _ hf
  erase h := by
    refine ⟨Fields.distinct_erase _ h.1, distinctFields_iff.2 fun field hf => ?_⟩
    exact distinctFields_iff.1 h.2 _ (List.mem_filter.1 hf).1

theorem hereditary_every (p : L → Prop) : Hereditary (Every p) where
  item h hx := everyItem_iff.1 h _ hx
  array h := everyItem_iff.2 h
  field h hf := everyField_iff.1 h _ hf
  object := trivial
  put h hx := by
    refine everyField_iff.2 fun field hf => ?_
    rcases Fields.mem_put hf with rfl | hf
    · exact hx
    · exact everyField_iff.1 h _ hf
  erase h := everyField_iff.2 fun field hf =>
    everyField_iff.1 h _ (List.mem_filter.1 hf).1

theorem Hereditary.find {q : Tree L → Prop} (hq : Hereditary q) {fields : List (String × Tree L)}
    {name : String} {x : Tree L} (h : q (.object fields)) (hf : List.lookup name fields = some x) :
    q x := hq.field h (Fields.mem_of_lookup hf)

theorem Hereditary.putAll {q : Tree L → Prop} (hq : Hereditary q)
    {news fields : List (String × Tree L)} (hn : ∀ field ∈ news, q field.2)
    (hf : q (.object fields)) : q (.object (Fields.putAll news fields)) := by
  induction news generalizing fields with
  | nil => exact hf
  | cons field news ih =>
      rw [Fields.putAll_cons]
      exact ih (fun f h => hn f (List.mem_cons_of_mem _ h))
        (hq.put hf (hn field List.mem_cons_self))

end DataTree.Tree
