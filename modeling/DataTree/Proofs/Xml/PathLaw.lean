import DataTree.Proofs.Backend.Through
import DataTree.Proofs.Backend.Wrote
import DataTree.Proofs.Tree.PathLaw
import DataTree.Proofs.Xml.Field

namespace DataTree

open Backend (Wrote mergeFields mergeObject)

theorem Backend.mergeFields_cons_eq_ok {S : Type} [Backend S] {name : String} {names : List String}
    {source node node' : S} (h : mergeFields (name :: names) source node = .ok () node') :
    ∃ found source', removeField name source = .ok found source' ∧
      match found with
      | none => mergeFields names source' node = .ok () node'
      | some child => ∃ next, insertField name child node = .ok () next ∧
        mergeFields names source' next = .ok () node' := by
  rw [mergeFields] at h
  cases hr : removeField name source with
  | error fault source' =>
      rw [hr] at h
      cases h
  | ok found source' =>
      rw [hr] at h
      refine ⟨found, source', rfl, ?_⟩
      cases found with
      | none => exact h
      | some child =>
          obtain ⟨_, next, hnext, hrest⟩ := run_bind_eq_ok.1 h
          exact ⟨next, hnext, hrest⟩

namespace Xml.Node

variable {x node node' m : Node}

/-- What a node is once it was written over whatever stood in its place. -/
inductive Standing (x : Node) : Node → Prop
  | same : Standing x x
  | named {name : String} : name ≠ "" → Standing x (x.named name)
  | merged {old m : Node} : Backend.kind x = .object → mergeObject x old = .ok () m → Standing x m

theorem standing_of_setAt (h : Backend.setAt x true [] node = .ok () m) : Standing x m := by
  rw [Backend.setAt] at h
  split at h
  next hkinds =>
    simp only [Bool.and_eq_true, beq_iff_eq] at hkinds
    split at h
    next m hm =>
      cases h
      exact .merged hkinds.2 hm
    next => cases h
  next =>
    cases h
    show Standing x (assign node x)
    cases node with
    | element name attributes children content =>
        rw [assign]
        split
        next => exact .same
        next hname => exact .named hname
    | _ => exact .same

theorem itemSlot_eq_some {i : Nat} {slot : Slot Node}
    (h : Backend.itemSlot node i = .ok (some slot)) :
    (∃ items, node = .list items ∧ items[i]? = some slot.node ∧
      slot.refill = fun y => .list (items.set i y)) ∨
    ∃ own attributes children content, node = .element own attributes children content ∧
      children[i]? = some slot.node ∧
      slot.refill = fun y => .element own attributes (children.set i y) content := by
  cases node with
  | list items =>
      obtain ⟨y, hy, rfl⟩ := Option.map_eq_some_iff.1 (Except.ok.inj h)
      exact .inl ⟨items, rfl, hy, rfl⟩
  | element own attributes children content =>
      change itemSlot _ i = _ at h
      rw [itemSlot] at h
      split at h
      next => cases h
      next =>
        obtain ⟨y, hy, rfl⟩ := Option.map_eq_some_iff.1 (Except.ok.inj h)
        exact .inr ⟨own, attributes, children, content, rfl, hy, rfl⟩
  | text content => cases h

theorem kind_of_children {own : String} {attributes : List (String × String)} {children : List Node}
    {content : String} (h : children ≠ []) :
    Backend.kind (Node.element own attributes children content) = .object := by
  show kind _ = _
  rw [kind, if_pos]
  simp [h]

theorem item_refill_self {i : Nat} {slot : Slot Node}
    (h : Backend.itemSlot node i = .ok (some slot)) (inner : Node) :
    Backend.item (slot.refill inner) i = .ok (some inner) := by
  rcases itemSlot_eq_some h with ⟨items, rfl, hitem, hrefill⟩ |
    ⟨own, attributes, children, content, rfl, hitem, hrefill⟩
  · obtain ⟨hlt, -⟩ := List.getElem?_eq_some_iff.1 hitem
    have hset : (items.set i inner)[i]? = some inner := by simp [hlt]
    rw [hrefill]
    exact congrArg Except.ok hset
  · obtain ⟨hlt, -⟩ := List.getElem?_eq_some_iff.1 hitem
    have hset : (children.set i inner)[i]? = some inner := by simp [hlt]
    have hne : children.set i inner ≠ [] := by
      intro hnil
      rw [hnil] at hset
      cases hset
    have hitems : Backend.items (.element own attributes (children.set i inner) content) =
        some (children.set i inner) := by
      show items? _ = _
      have hkind : kind (.element own attributes (children.set i inner) content) = .object :=
        kind_of_children hne
      rw [items?, if_neg (by simp [hkind])]
    rw [hrefill, LawfulBackend.item_of_items hitems, hset]

theorem item_slot {i : Nat} {slot : Slot Node} (h : Backend.itemSlot node i = .ok (some slot)) :
    Backend.item node i = .ok (some slot.node) := by
  have hself := item_refill_self h slot.node
  rwa [LawfulBackend.itemSlot_refill h] at hself

section Names

variable {own : String}

theorem isNamed_mergeFields {names : List String} {source : Node}
    (h : mergeFields names source node = .ok () node') : isNamed own node' = isNamed own node := by
  induction names generalizing source node with
  | nil =>
      cases h
      rfl
  | cons name names ih =>
      obtain ⟨found, source', -, hfound⟩ := Backend.mergeFields_cons_eq_ok h
      cases found with
      | none => exact ih hfound
      | some child =>
          obtain ⟨next, hnext, hrest⟩ := hfound
          rw [ih hrest, isNamed_insertField hnext]

theorem isNamed_assign (hne : own ≠ "") (h : isNamed own node = true) (x : Node) :
    isNamed own (assign node x) = true := by
  obtain ⟨attributes, children, content, rfl⟩ := isNamed_iff.1 h
  rw [assign, if_neg hne, isNamed_named_self]

theorem isNamed_item {i : Nat} {slot : Slot Node} (h : Backend.itemSlot node i = .ok (some slot))
    (inner : Node) : isNamed own (slot.refill inner) = isNamed own node := by
  rcases itemSlot_eq_some h with ⟨items, rfl, -, hrefill⟩ |
    ⟨own', attributes, children, content, rfl, -, hrefill⟩ <;> rw [hrefill] <;> rfl

theorem isNamed_wrote_below {merge : Bool} {path : Path} (w : Wrote x merge path node node')
    (hpath : path ≠ []) : isNamed own node' = isNamed own node := by
  cases w with
  | target _ => exact absurd rfl hpath
  | item hslot _ => exact isNamed_item hslot _
  | field hslot _ => exact isNamed_refill hslot
  | fresh _ hinsert => exact isNamed_insertField hinsert
  | branch _ _ hinsert => exact isNamed_insertField hinsert

theorem isNamed_wrote {merge : Bool} {path : Path} (w : Wrote x merge path node node')
    (hne : own ≠ "") (h : isNamed own node = true) : isNamed own node' = true := by
  by_cases hpath : path = []
  · subst hpath
    cases w with
    | target hset =>
        rw [Backend.setAt] at hset
        split at hset
        next =>
          split at hset
          next hm =>
            cases hset
            rwa [isNamed_mergeFields hm]
          next => cases hset
        next =>
          cases hset
          exact isNamed_assign hne h x
  · rwa [isNamed_wrote_below w hpath]

end Names

theorem wrote_element {merge : Bool} {name : String} {rest : Path}
    (w : Wrote x merge (.name name :: rest) node node') :
    ∃ own attributes children content, node' = .element own attributes children content := by
  cases w with
  | field hslot _ =>
      obtain ⟨own, attributes, children, content, one, -, -, rfl⟩ := fieldSlot_eq_some hslot
      exact ⟨_, _, _, _, rfl⟩
  | fresh _ hinsert =>
      obtain ⟨own, attributes, children, content, -, rfl⟩ := insertField_eq_ok hinsert
      exact ⟨_, _, _, _, rfl⟩
  | branch _ _ hinsert =>
      obtain ⟨own, attributes, children, content, -, rfl⟩ := insertField_eq_ok hinsert
      exact ⟨_, _, _, _, rfl⟩

theorem get_named_element {own : String} {attributes : List (String × String)}
    {children : List Node} {content : String} (name : String) {path : Path} (h : path ≠ []) :
    Backend.get (named name (.element own attributes children content)) path =
      Backend.get (.element own attributes children content) path := by
  cases path with
  | nil => exact absurd rfl h
  | cons key rest => cases key <;> rfl

/-- A branch that was just made is an element, since an array that was just made has no item to
write to, and below it all is as before when it gets its name. -/
theorem get_named_branch {merge : Bool} {next : Key} {rest : Path} {branch : Node}
    (w : Wrote x merge (next :: rest) (Backend.emptyFor next) branch) (name : String)
    (h : Backend.get branch (next :: rest) = .ok (some m)) :
    Backend.get (branch.named name) (next :: rest) = .ok (some m) := by
  cases next with
  | index i =>
      cases w with
      | item hslot _ => cases hslot
  | name _ =>
      obtain ⟨own, attributes, children, content, rfl⟩ := wrote_element w
      rwa [get_named_element name (by simp)]

/-- Names on a path have to be nonempty, since an element without a name gets none back when it is
overwritten. -/
def NamesNonempty (path : Path) : Prop := ∀ key ∈ path, key ≠ .name ""

instance (path : Path) : Decidable (NamesNonempty path) :=
  inferInstanceAs (Decidable (∀ key ∈ path, key ≠ .name ""))

theorem NamesNonempty.head {name : String} {rest : Path} (h : NamesNonempty (.name name :: rest)) :
    name ≠ "" := fun he => h (.name name) List.mem_cons_self (congrArg Key.name he)

theorem NamesNonempty.tail {key : Key} {rest : Path} (h : NamesNonempty (key :: rest)) :
    NamesNonempty rest := fun other hm => h other (List.mem_cons_of_mem _ hm)

theorem get_wrote {path : Path} (w : Wrote x true path node node') (hp : NamesNonempty path) :
    ∃ m, Backend.get node' path = .ok (some m) ∧ Standing x m := by
  induction w with
  | @target node node' hset => exact ⟨node', rfl, standing_of_setAt hset⟩
  | item hslot _ ih =>
      obtain ⟨m, hget, hm⟩ := ih hp.tail
      exact ⟨m, Backend.get_cons_eq_some.2 ⟨_, item_refill_self hslot _, hget⟩, hm⟩
  | @field node inner name slot rest hslot w ih =>
      obtain ⟨m, hget, hm⟩ := ih hp.tail
      have hinner := isNamed_wrote w hp.head (isNamed_slot hslot)
      exact ⟨m, Backend.get_cons_eq_some.2 ⟨_, field_refill_self hslot hinner, hget⟩, hm⟩
  | @fresh node node' name _ hinsert =>
      exact ⟨x.named name, Backend.get_cons_eq_some.2 ⟨_, field_insertField_self hinsert, rfl⟩,
        .named hp.head⟩
  | @branch node branch node' name next rest _ w hinsert ih =>
      obtain ⟨m, hget, hm⟩ := ih hp.tail
      exact ⟨m, Backend.get_cons_eq_some.2
        ⟨_, field_insertField_self hinsert, get_named_branch w name hget⟩, hm⟩

def OnlyNames (path : Path) : Prop := ∀ key ∈ path, key.isIndex = false

instance (path : Path) : Decidable (OnlyNames path) :=
  inferInstanceAs (Decidable (∀ key ∈ path, key.isIndex = false))

theorem OnlyNames.tail {key : Key} {rest : Path} (h : OnlyNames (key :: rest)) : OnlyNames rest :=
  fun other hm => h other (List.mem_cons_of_mem _ hm)

theorem get_of_fieldSlot_none {name : String} {rest : Path} {v : Node}
    (hslot : Backend.fieldSlot node name = .ok none) (hne : rest ≠ []) :
    Backend.get node (.name name :: rest) ≠ .ok (some v) := by
  intro h
  obtain ⟨own, attributes, children, content, rfl, hnone⟩ := fieldSlot_eq_none hslot
  obtain ⟨child, hchild, hget⟩ := Backend.get_cons_eq_some.1 h
  change Backend.field _ name = _ at hchild
  rw [field_element, hnone] at hchild
  obtain ⟨s, -, rfl⟩ := Option.map_eq_some_iff.1 (Except.ok.inj hchild)
  cases rest with
  | nil => exact hne rfl
  | cons key rest =>
      obtain ⟨_, hbelow, -⟩ := Backend.get_cons_eq_some.1 hget
      cases key <;> cases hbelow

theorem get_insertField_beside {name : String} {rest other : Path} {b v : Node}
    (hslot : Backend.fieldSlot node name = .ok none)
    (hinsert : Backend.insertField name b node = .ok () node') (ho : OnlyNames other)
    (hd : Path.Diverge (.name name :: rest) other) (h : Backend.get node other = .ok (some v)) :
    Backend.get node' other = .ok (some v) := by
  cases other with
  | nil => exact absurd hd Path.not_diverge_nil
  | cons key below =>
      cases key with
      | index i => cases ho (.index i) List.mem_cons_self
      | name key =>
          by_cases hkey : key = name
          · subst hkey
            have hbelow : below ≠ [] := by
              rintro rfl
              exact hd.2 (List.prefix_cons_inj _ |>.2 List.nil_prefix)
            exact absurd h (get_of_fieldSlot_none hslot hbelow)
          · obtain ⟨child, hchild, hget⟩ := Backend.get_cons_eq_some.1 h
            refine Backend.get_cons_eq_some.2 ⟨child, ?_, hget⟩
            show Backend.field _ key = _
            rw [field_insertField_of_ne hinsert hkey]
            exact hchild

theorem get_wrote_beside {merge : Bool} {path : Path} (w : Wrote x merge path node node')
    (hp : NamesNonempty path) (hnames : OnlyNames path) {other : Path} (ho : OnlyNames other)
    (hd : path.Diverge other) {v : Node} (h : Backend.get node other = .ok (some v)) :
    Backend.get node' other = .ok (some v) := by
  induction w generalizing other with
  | target _ => exact absurd hd.symm Path.not_diverge_nil
  | @item node inner i slot rest hslot _ _ => cases hnames (.index i) List.mem_cons_self
  | @field node inner name slot rest hslot w ih =>
      have hinner := isNamed_wrote w hp.head (isNamed_slot hslot)
      cases other with
      | nil => exact absurd hd Path.not_diverge_nil
      | cons key below =>
          cases key with
          | index i => cases ho (.index i) List.mem_cons_self
          | name key =>
              obtain ⟨child, hchild, hget⟩ := Backend.get_cons_eq_some.1 h
              change Backend.field _ key = _ at hchild
              by_cases hkey : key = name
              · subst hkey
                obtain rfl : slot.node = child := by
                  rw [field_slot hslot] at hchild
                  exact Option.some.inj (Except.ok.inj hchild)
                have hget' := ih hp.tail hnames.tail ho.tail (Path.diverge_cons_self.1 hd) hget
                exact Backend.get_cons_eq_some.2 ⟨inner, field_refill_self hslot hinner, hget'⟩
              · refine Backend.get_cons_eq_some.2 ⟨child, ?_, hget⟩
                show Backend.field _ key = _
                rw [field_refill_of_ne hslot hkey hinner, hchild]
  | fresh hslot hinsert => exact get_insertField_beside hslot hinsert ho hd h
  | branch hslot _ hinsert _ => exact get_insertField_beside hslot hinsert ho hd h

end Xml.Node

end DataTree
