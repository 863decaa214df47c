import DataTree.Navigation
import DataTree.Proofs.Tree.Hereditary

namespace DataTree

theorem Slot.edit_ok {S : Type} {slot : Slot S} {key : Key} {change : EStateM Error S Unit} {t : S}
    (h : slot.edit key change = .ok () t) :
    ∃ node, change slot.node = .ok () node ∧ t = slot.refill node := by
  rw [Slot.edit] at h
  split at h
  next node hc =>
    cases h
    exact ⟨node, hc, rfl⟩
  next => cases h

theorem Backend.setAt_of_set {S : Type} [Backend S] {t t' x : S} {path : Path} {merge : Bool}
    (h : set t path x merge = .ok t') : setAt x merge path t = .ok () t' := by
  rw [set] at h
  split at h
  next hset =>
    cases h
    exact hset
  next => cases h

namespace Tree

open Backend (setAt mergeFields mergeObject emptyFor)

variable {L : Type} [Leaf L]

/-- The tree that a write leaves where a node stood: the fields of an object are added to an object
if they are to be merged, and everything else takes the place of the node. -/
def stored (merge : Bool) (x : Tree L) : Tree L → Tree L
  | .object fields =>
    match merge, x with
    | true, .object news => .object (Fields.putAll news fields)
    | _, x => x
  | _ => x

/-- A tree after `x` was written to a path of it. At the first name that is missing a branch is made
of empty objects, which the rest of the path is written to. -/
inductive Written (x : Tree L) (merge : Bool) : Path → Tree L → Tree L → Prop
  | target {t : Tree L} : Written x merge [] t (stored merge x t)
  | item {items : List (Tree L)} {i : Nat} {rest : Path} {a b : Tree L} :
      items[i]? = some a → Written x merge rest a b →
      Written x merge (.index i :: rest) (.array items) (.array (items.set i b))
  | field {fields : List (String × Tree L)} {name : String} {rest : Path} {a b : Tree L} :
      List.lookup name fields = some a → Written x merge rest a b →
      Written x merge (.name name :: rest) (.object fields) (.object (Fields.put name b fields))
  | fresh {fields : List (String × Tree L)} {name : String} :
      name ∉ Fields.names fields →
      Written x merge [.name name] (.object fields) (.object (Fields.put name x fields))
  | branch {fields : List (String × Tree L)} {name next : String} {rest : Path} {b : Tree L} :
      name ∉ Fields.names fields → Written x merge (.name next :: rest) (.object []) b →
      Written x merge (.name name :: .name next :: rest) (.object fields)
        (.object (Fields.put name b fields))

theorem mergeFields_object {news : List (String × Tree L)} (hn : Fields.Distinct news)
    (fields : List (String × Tree L)) :
    mergeFields (Fields.names news) (Tree.object news) (Tree.object fields) =
      .ok () (Tree.object (Fields.putAll news fields)) := by
  induction news generalizing fields with
  | nil => rfl
  | cons field news ih =>
      obtain ⟨hfresh, hrest⟩ := Fields.distinct_cons.1 hn
      obtain ⟨name, x⟩ := field
      have hremove : Backend.removeField name (.object ((name, x) :: news) : Tree L) =
          .ok (some x) (.object news) := by
        show removeField name _ = _
        rw [removeField, Fields.lookup_cons, if_pos rfl, Fields.erase_cons_self,
          Fields.erase_of_notMem hfresh]
      rw [Fields.names_cons, mergeFields, hremove]
      exact ih hrest _

theorem kind_leaf (x : L) :
    Backend.kind (leaf x) = ((Leaf.kind? x).map Kind.scalar).getD .null := rfl

theorem isNull_leaf (x : L) :
    Backend.isNull (Tree.leaf x) = (Leaf.kind? x).isNone := by
  rw [Backend.isNull, kind_leaf]
  cases Leaf.kind? x <;> rfl

theorem kind_eq_object {t : Tree L} : Backend.kind t = .object ↔ ∃ fields, t = .object fields := by
  constructor
  · intro h
    cases t with
    | leaf x =>
        rw [kind_leaf] at h
        cases hk : Leaf.kind? x <;> simp [hk] at h
    | array items => cases h
    | object fields => exact ⟨fields, rfl⟩
  · rintro ⟨fields, rfl⟩
    rfl

theorem kind_eq_array {t : Tree L} : Backend.kind t = .array ↔ ∃ items, t = .array items := by
  constructor
  · intro h
    cases t with
    | leaf x =>
        rw [kind_leaf] at h
        cases hk : Leaf.kind? x <;> simp [hk] at h
    | array items => exact ⟨items, rfl⟩
    | object fields => cases h
  · rintro ⟨items, rfl⟩
    rfl

theorem stored_eq_self {merge : Bool} {x t : Tree L}
    (h : ¬ (merge = true ∧ Backend.kind t = .object ∧ Backend.kind x = .object)) :
    stored merge x t = x := by
  cases t with
  | object fields =>
      cases merge with
      | false => rfl
      | true =>
          cases x with
          | object news => exact absurd ⟨rfl, rfl, rfl⟩ h
          | _ => rfl
  | _ => rfl

theorem setAt_target {x : Tree L} (hx : x.Distinct) (merge : Bool) (t : Tree L) :
    setAt x merge [] t = .ok () (stored merge x t) := by
  rw [setAt]
  simp only [Bool.and_eq_true, beq_iff_eq, and_assoc]
  split
  next h =>
    obtain ⟨rfl, ht, hk⟩ := h
    obtain ⟨fields, rfl⟩ := kind_eq_object.1 ht
    obtain ⟨news, rfl⟩ := kind_eq_object.1 hk
    have hm : mergeObject (Tree.object news) (Tree.object fields) =
        .ok () (Tree.object (Fields.putAll news fields)) := mergeFields_object hx.1 fields
    rw [hm]
    rfl
  next h => rw [stored_eq_self h]; rfl

theorem itemSlot_array (items : List (Tree L)) (i : Nat) :
    Backend.itemSlot (Tree.array items) i =
      .ok (items[i]?.map fun a => ⟨a, fun b => .array (items.set i b)⟩) := rfl

@[simp] theorem fieldSlot_object (fields : List (String × Tree L)) (name : String) :
    Backend.fieldSlot (Tree.object fields) name =
      .ok ((List.lookup name fields).map fun a =>
        ⟨a, fun b => .object (Fields.put name b fields)⟩) := rfl

@[simp] theorem insertField_object (name : String) (x : Tree L) (fields : List (String × Tree L)) :
    Backend.insertField name x (Tree.object fields) =
      .ok () (Tree.object (Fields.put name x fields)) := rfl

theorem setAt_index_mismatch (x : Tree L) (merge : Bool) {t : Tree L}
    (h : Backend.kind t ≠ .array) (i : Nat) (rest : Path) :
    setAt x merge (.index i :: rest) t =
      .error ⟨.expectedArray (Backend.kind t), [.index i]⟩ t := by
  cases t with
  | array items => exact absurd rfl h
  | _ => rfl

theorem setAt_name_mismatch (x : Tree L) (merge : Bool) {t : Tree L}
    (h : Backend.kind t ≠ .object) (name : String) (rest : Path) :
    setAt x merge (.name name :: rest) t =
      .error ⟨.expectedObject (Backend.kind t), [.name name]⟩ t := by
  cases t with
  | object fields => exact absurd rfl h
  | _ => rfl

theorem setAt_outOfBounds (x : Tree L) (merge : Bool) {items : List (Tree L)} {i : Nat}
    (h : items[i]? = none) (rest : Path) :
    setAt x merge (.index i :: rest) (Tree.array items) =
      .error ⟨.outOfBounds i items.length, [.index i]⟩ (Tree.array items) := by
  simp only [setAt, itemSlot_array, h, Option.map_none]
  rfl

theorem setAt_item (x : Tree L) (merge : Bool) {items : List (Tree L)} {i : Nat} {a : Tree L}
    (h : items[i]? = some a) (rest : Path) :
    setAt x merge (.index i :: rest) (Tree.array items) =
      Slot.edit ⟨a, fun b => .array (items.set i b)⟩ (.index i) (setAt x merge rest) := by
  simp only [setAt, itemSlot_array, h, Option.map_some]

theorem setAt_field (x : Tree L) (merge : Bool) {fields : List (String × Tree L)} {name : String}
    {a : Tree L} (h : List.lookup name fields = some a) (rest : Path) :
    setAt x merge (.name name :: rest) (Tree.object fields) =
      Slot.edit ⟨a, fun b => .object (Fields.put name b fields)⟩ (.name name)
        (setAt x merge rest) := by
  simp only [setAt, fieldSlot_object, h, Option.map_some]

theorem setAt_fresh (x : Tree L) (merge : Bool) {fields : List (String × Tree L)} {name : String}
    (h : name ∉ Fields.names fields) :
    setAt x merge [.name name] (Tree.object fields) =
      .ok () (Tree.object (Fields.put name x fields)) := by
  simp only [setAt, fieldSlot_object, Fields.lookup_eq_none.2 h, Option.map_none,
    insertField_object]

theorem setAt_branch (x : Tree L) (merge : Bool) {fields : List (String × Tree L)} {name : String}
    (h : name ∉ Fields.names fields) (next : Key) (rest : Path) :
    setAt x merge (.name name :: next :: rest) (Tree.object fields) =
      match setAt x merge (next :: rest) (emptyFor next) with
      | .ok () b => .ok () (Tree.object (Fields.put name b fields))
      | .error e _ => .error (e.within [.name name]) (Tree.object fields) := by
  simp only [setAt, fieldSlot_object, Fields.lookup_eq_none.2 h, Option.map_none,
    insertField_object]
  cases setAt x merge (next :: rest) (emptyFor next : Tree L) <;> rfl

theorem written_of_setAt {x : Tree L} (hx : x.Distinct) {merge : Bool} {path : Path}
    {t t' : Tree L} (h : setAt x merge path t = .ok () t') : Written x merge path t t' := by
  induction path generalizing t t' with
  | nil =>
      rw [setAt_target hx] at h
      cases h
      exact .target
  | cons key rest ih =>
      cases key with
      | index i =>
          cases t with
          | array items =>
              cases hi : items[i]? with
              | none =>
                  rw [setAt_outOfBounds x merge hi] at h
                  cases h
              | some a =>
                  rw [setAt_item x merge hi] at h
                  obtain ⟨b, hb, rfl⟩ := Slot.edit_ok h
                  exact .item hi (ih hb)
          | _ => cases h
      | name name =>
          cases t with
          | object fields =>
              cases hf : List.lookup name fields with
              | some a =>
                  rw [setAt_field x merge hf] at h
                  obtain ⟨b, hb, rfl⟩ := Slot.edit_ok h
                  exact .field hf (ih hb)
              | none =>
                  have hn := Fields.lookup_eq_none.1 hf
                  cases rest with
                  | nil =>
                      rw [setAt_fresh x merge hn] at h
                      cases h
                      exact .fresh hn
                  | cons next rest =>
                      rw [setAt_branch x merge hn] at h
                      cases next with
                      | index i => cases h
                      | name next =>
                          split at h
                          next b hb =>
                            cases h
                            exact .branch hn (ih hb)
                          next => cases h
          | _ => cases h

theorem Written.setAt_eq_ok {x : Tree L} (hx : x.Distinct) {merge : Bool} {path : Path}
    {t t' : Tree L} (w : Written x merge path t t') : setAt x merge path t = .ok () t' := by
  induction w with
  | target => exact setAt_target hx merge _
  | item hi _ ih => rw [setAt_item x merge hi, Slot.edit, ih]
  | field hf _ ih => rw [setAt_field x merge hf, Slot.edit, ih]
  | fresh hn => exact setAt_fresh x merge hn
  | @branch fields name next rest b hn _ ih =>
      have hbranch : setAt x merge (.name next :: rest) (emptyFor (.name next)) = .ok () b := ih
      rw [setAt_branch x merge hn, hbranch]

theorem written_of_set {x t t' : Tree L} (hx : x.Distinct) {merge : Bool} {path : Path}
    (h : Backend.set t path x merge = .ok t') : Written x merge path t t' :=
  written_of_setAt hx (Backend.setAt_of_set h)

omit [Leaf L] in
theorem Hereditary.stored {q : Tree L → Prop} (hq : Hereditary q) {x t : Tree L} (hx : q x)
    (ht : q t) (merge : Bool) : q (stored merge x t) := by
  cases t with
  | object fields =>
      cases merge with
      | false => exact hx
      | true =>
          cases x with
          | object news => exact hq.putAll (fun field hf => hq.field hx hf) ht
          | _ => exact hx
  | _ => exact hx

omit [Leaf L] in
theorem Written.hereditary {q : Tree L → Prop} (hq : Hereditary q) {x t t' : Tree L} {merge : Bool}
    {path : Path} (w : Written x merge path t t') (hx : q x) (ht : q t) : q t' := by
  induction w with
  | target => exact hq.stored hx ht merge
  | item hi _ ih =>
      refine hq.array fun y hy => ?_
      rcases List.mem_or_eq_of_mem_set hy with hy | rfl
      · exact hq.item ht hy
      · exact ih (hq.item ht (List.mem_of_getElem? hi))
  | field hf _ ih => exact hq.put ht (ih (hq.find ht hf))
  | fresh => exact hq.put ht hx
  | branch _ _ ih => exact hq.put ht (ih hq.object)

omit [Leaf L] in
theorem Written.object_root {x t' : Tree L} {merge : Bool} {path : Path}
    {fields : List (String × Tree L)} (hp : path ≠ [])
    (w : Written x merge path (.object fields) t') : ∃ fields', t' = .object fields' := by
  cases w with
  | target => exact absurd rfl hp
  | field _ _ => exact ⟨_, rfl⟩
  | fresh _ => exact ⟨_, rfl⟩
  | branch _ _ => exact ⟨_, rfl⟩

end Tree

end DataTree
