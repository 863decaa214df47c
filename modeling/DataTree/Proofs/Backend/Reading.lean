import DataTree.Proofs.Fields
import DataTree.Proofs.Outcome

namespace DataTree

open Backend

section Collecting

variable {α β γ : Type}

theorem eachItem_map (f : β → Except Error γ) (g : α → β) (index : Nat) (xs : List α) :
    eachItem f index (xs.map g) = eachItem (fun x => f (g x)) index xs := by
  induction xs generalizing index with
  | nil => rfl
  | cons x xs ih => rw [List.map_cons, eachItem, eachItem, ih]

theorem eachItem_attach (f : α → Except Error β) (index : Nat) (xs : List α) :
    eachItem (fun x : { x // x ∈ xs } => f x.1) index xs.attach = eachItem f index xs := by
  rw [← eachItem_map f Subtype.val, List.attach_map_subtype_val]

theorem eachItem_congr {f g : α → Except Error β} {xs : List α} (h : ∀ x ∈ xs, f x = g x)
    (index : Nat) : eachItem f index xs = eachItem g index xs := by
  induction xs generalizing index with
  | nil => rfl
  | cons x xs ih =>
      rw [eachItem, eachItem, h x List.mem_cons_self,
        ih fun y hy => h y (List.mem_cons_of_mem _ hy)]

theorem exists_eachItem {f : α → Except Error β} {xs : List α} (h : ∀ x ∈ xs, ∃ y, f x = .ok y)
    (index : Nat) : ∃ ys, eachItem f index xs = .ok ys := by
  induction xs generalizing index with
  | nil => exact ⟨[], rfl⟩
  | cons x xs ih =>
      obtain ⟨y, hy⟩ := h x List.mem_cons_self
      obtain ⟨ys, hys⟩ := ih (fun z hz => h z (List.mem_cons_of_mem _ hz)) (index + 1)
      exact ⟨y :: ys, eachItem_cons_eq_ok.2 ⟨y, ys, hy, hys, rfl⟩⟩

theorem eachField_names {f : String → Except Error (Option β)} {fields : List (String × β)}
    (h : ∀ field ∈ fields, f field.1 = .ok (some field.2)) :
    eachField f (Fields.names fields) = .ok fields := by
  induction fields with
  | nil => rfl
  | cons field rest ih =>
      rw [Fields.names_cons, eachField, h field List.mem_cons_self,
        ih fun other hm => h other (List.mem_cons_of_mem _ hm)]
      rfl

theorem eachField_cons_eq_ok {f : String → Except Error (Option β)} {name : String}
    {names : List String} {fields : List (String × β)} :
    eachField f (name :: names) = .ok fields ↔ ∃ y rest, f name = .ok y ∧
      eachField f names = .ok rest ∧ fields = (y.map (name, ·)).toList ++ rest := by
  rw [eachField]
  simp only [bind_eq_ok, mapError_eq_ok, pure, Except.pure, Except.ok.injEq]
  constructor
  · rintro ⟨y, hy, rest, hrest, rfl⟩
    exact ⟨y, rest, hy, hrest, by cases y <;> rfl⟩
  · rintro ⟨y, rest, hy, hrest, rfl⟩
    exact ⟨y, hy, rest, hrest, by cases y <;> rfl⟩

theorem exists_eachField {f : String → Except Error (Option β)} {names : List String}
    (h : ∀ name ∈ names, ∃ y, f name = .ok y) : ∃ fields, eachField f names = .ok fields := by
  induction names with
  | nil => exact ⟨[], rfl⟩
  | cons name names ih =>
      obtain ⟨y, hy⟩ := h name List.mem_cons_self
      obtain ⟨rest, hrest⟩ := ih fun other hm => h other (List.mem_cons_of_mem _ hm)
      exact ⟨_, eachField_cons_eq_ok.2 ⟨y, rest, hy, hrest, rfl⟩⟩

theorem lookup_eachField_of_notMem {f : String → Except Error (Option β)} {names : List String}
    {fields : List (String × β)} (h : eachField f names = .ok fields) {name : String}
    (hname : name ∉ names) : List.lookup name fields = none := by
  induction names generalizing fields with
  | nil =>
      cases h
      rfl
  | cons first names ih =>
      obtain ⟨y, rest, -, hrest, rfl⟩ := eachField_cons_eq_ok.1 h
      rw [List.mem_cons, not_or] at hname
      cases y with
      | none => exact ih hrest hname.2
      | some y => exact (Fields.lookup_cons_of_ne (Ne.symm hname.1) y rest).trans (ih hrest hname.2)

theorem lookup_eachField {f : String → Except Error (Option β)} {names : List String}
    {fields : List (String × β)} (h : eachField f names = .ok fields) {name : String}
    (hname : name ∈ names) {y : Option β} (hy : f name = .ok y) :
    List.lookup name fields = y := by
  induction names generalizing fields with
  | nil => cases hname
  | cons first names ih =>
      obtain ⟨z, rest, hz, hrest, rfl⟩ := eachField_cons_eq_ok.1 h
      by_cases hne : first = name
      · subst hne
        obtain rfl : z = y := Except.ok.inj (hz.symm.trans hy)
        cases z with
        | some z => exact List.lookup_cons_self
        | none =>
            -- the name may come again further behind
            by_cases hagain : first ∈ names
            · exact ih hrest hagain
            · exact lookup_eachField_of_notMem hrest hagain
      · have hrest := ih hrest ((List.mem_cons.1 hname).resolve_left (Ne.symm hne))
        cases z with
        | none => exact hrest
        | some z => exact (Fields.lookup_cons_of_ne hne z _).trans hrest

end Collecting

namespace Backend

variable {S : Type} [Backend S] {node : S}

/-- What the field of a name reads as, or none if there is no such field. -/
def fieldValue (node : S) (name : String) : Except Error (Option Value) :=
  match field node name with
  | .error fault => .error (.root fault)
  | .ok none => .ok none
  | .ok (some child) => (toValue child).map some

theorem toValue_of_null (h : kind node = .null) : toValue node = .ok Value.null := by
  rw [toValue]
  simp only [h]

theorem toValue_of_scalar {hint : ScalarKind} (h : kind node = .scalar hint) :
    toValue node = (scalar node hint).mapError Error.root := by
  rw [toValue]
  simp only [h]

theorem toValue_of_array (h : kind node = .array) {children : List S}
    (hi : items node = some children) :
    toValue node = (eachItem toValue 0 children).map Tree.array := by
  rw [toValue, ← eachItem_attach toValue]
  simp only [h]
  split
  next hnone => cases hi.symm.trans hnone
  next children' hsome =>
    obtain rfl : children = children' := Option.some.inj (hi.symm.trans hsome)
    rfl

theorem toValue_of_object (h : kind node = .object) :
    toValue node = (eachField (fieldValue node) (fieldNames node)).map Tree.object := by
  rw [toValue]
  simp only [h]
  congr 2
  funext name
  rw [fieldValue]
  split
  next hf => rw [hf]
  next hf => rw [hf]
  next hf => rw [hf]

end Backend

end DataTree
