import DataTree.Proofs.Tree.Hereditary
import DataTree.Proofs.Xml.Placement

namespace DataTree.Xml.Node

open Backend (Wrote mergeFields mergeObject memberSlot)

variable {x node node' child : Node} {name : String} {path : Path}

/-- No element has attributes, at any depth. -/
inductive Bare : Node → Prop
  | text (content : String) : Bare (.text content)
  | list {items : List Node} (below : ∀ x ∈ items, Bare x) : Bare (.list items)
  | element {own : String} {children : List Node} {content : String}
      (below : ∀ child ∈ children, Bare child) : Bare (.element own [] children content)

/-- The trees that values and writes make. -/
inductive Grown : Node → Prop
  | value {v : Value} {node : Node} : ofValue v = .ok node → Grown node
  | set {x node node' : Node} {path : Path} {merge : Bool} : Grown x → Grown node →
      Backend.set node path x merge = .ok node' → Grown node'

theorem bare_list {items : List Node} : Bare (.list items) ↔ ∀ x ∈ items, Bare x :=
  ⟨fun h => by cases h with | list below => exact below, .list⟩

theorem bare_element {own content : String} {attributes : List (String × String)}
    {children : List Node} : Bare (.element own attributes children content) ↔
      attributes = [] ∧ ∀ child ∈ children, Bare child := by
  constructor
  · intro h
    cases h with
    | element below => exact ⟨rfl, below⟩
  · rintro ⟨rfl, below⟩
    exact .element below

theorem bare_empty : Bare empty := .element fun _ h => absurd h List.not_mem_nil

theorem Bare.named (h : Bare node) (name : String) : Bare (named name node) := by
  induction h generalizing name with
  | text content => exact .element fun _ h => absurd h List.not_mem_nil
  | @list items _ ih =>
      rw [Node.named, namedItems_eq_map]
      refine .element fun c hc => ?_
      obtain ⟨x, hx, rfl⟩ := List.mem_map.1 hc
      exact ih x hx itemName
  | element below => exact .element below

theorem Bare.field (h : Bare node) (hc : Backend.field node name = .ok (some child)) :
    Bare child := by
  cases h with
  | @element own children content below =>
      have hchildren (c : Node) (hm : c ∈ children.filter (isNamed name)) : Bare c :=
        below c (List.mem_filter.1 hm).1
      rw [field_element] at hc
      split at hc
      next => cases hc
      next one hone =>
        cases hc
        exact hchildren child (hone ▸ List.mem_singleton_self child)
      next =>
        cases hc
        exact .list hchildren
  | _ => cases hc

theorem Bare.item (h : Bare node) {i : Nat} (hc : Backend.item node i = .ok (some child)) :
    Bare child := by
  change Node.item node i = _ at hc
  rw [Node.item] at hc
  split at hc
  next items hitems =>
    have hmem := List.mem_of_getElem? (Except.ok.inj hc)
    cases h with
    | text content => cases hitems
    | list below =>
        cases hitems
        exact below child hmem
    | element below =>
        rw [items?] at hitems
        split at hitems
        next => cases hitems
        next =>
          cases hitems
          exact below child hmem
  next => cases hc

theorem Bare.get (h : Bare node) (hget : Backend.get node path = .ok (some child)) :
    Bare child := by
  induction path generalizing node with
  | nil =>
      cases hget
      exact h
  | cons key rest ih =>
      obtain ⟨next, hnext, hrest⟩ := Backend.get_cons_eq_some.1 hget
      cases key with
      | name name => exact ih (h.field hnext) hrest
      | index i => exact ih (h.item hnext) hrest

section Edits

theorem bare_insertField (h : Bare node) (hc : Bare child)
    (hinsert : Backend.insertField name child node = .ok () node') : Bare node' := by
  obtain ⟨own, attributes, children, content, rfl, rfl⟩ := insertField_eq_ok hinsert
  obtain ⟨rfl, hchildren⟩ := bare_element.1 h
  refine .element fun c hmem => ?_
  rcases mem_place hmem with rfl | hmem
  · exact hc.named name
  · exact hchildren c hmem

theorem bare_removeField (h : Bare node) {found : Option Node}
    (hremove : Backend.removeField name node = .ok found node') : Bare node' := by
  obtain ⟨own, attributes, children, content, kept, rfl, rfl, -, hkept⟩ := removeField_eq_ok hremove
  obtain ⟨rfl, hchildren⟩ := bare_element.1 h
  have hnone : kept = [] := by
    rcases hkept with ⟨-, rfl⟩ | ⟨-, rfl⟩ <;> rfl
  exact bare_element.2 ⟨hnone, fun c hc => hchildren c (List.mem_filter.1 hc).1⟩

theorem bare_mergeFields {names : List String} (hx : Bare x) (h : Bare node)
    (hmerge : mergeFields names x node = .ok () node') : Bare node' := by
  induction names generalizing x node with
  | nil =>
      cases hmerge
      exact h
  | cons name names ih =>
      obtain ⟨found, x', hremove, hfound⟩ := Backend.mergeFields_cons_eq_ok hmerge
      have hx' := bare_removeField hx hremove
      cases found with
      | none => exact ih hx' h hfound
      | some child =>
          obtain ⟨next, hinsert, hrest⟩ := hfound
          have hchild := hx.field (field_removeField hremove)
          exact ih hx' (bare_insertField h hchild hinsert) hrest

theorem bare_assign (hx : Bare x) (node : Node) : Bare (assign node x) := by
  cases node with
  | element own attributes children content =>
      rw [assign]
      split
      next => exact hx
      next => exact hx.named own
  | _ => exact hx

end Edits

theorem Bare.memberSlot (h : Bare node) (key : Key) {slot : Slot Node}
    (hslot : memberSlot node key = .ok (some slot)) :
    Bare slot.node ∧ ∀ inner, Bare inner → Bare (slot.refill inner) := by
  cases key with
  | name name =>
      obtain ⟨own, attributes, children, content, one, rfl, hone, rfl⟩ := fieldSlot_eq_some hslot
      obtain ⟨rfl, hchildren⟩ := bare_element.1 h
      have hmem : one ∈ children.filter (isNamed name) := hone ▸ List.mem_singleton_self one
      refine ⟨hchildren one (List.mem_filter.1 hmem).1, fun inner hinner => .element fun c hc => ?_⟩
      rcases mem_replaceNamed hc with rfl | hc
      · exact hinner
      · exact hchildren c hc
  | index i =>
      have hset {nodes : List Node} {inner : Node} (hnodes : ∀ c ∈ nodes, Bare c)
          (hinner : Bare inner) : ∀ c ∈ nodes.set i inner, Bare c := fun c hc =>
        (List.mem_or_eq_of_mem_set hc).elim (hnodes c) (fun he => he ▸ hinner)
      rcases itemSlot_eq_some hslot with ⟨items, rfl, hitem, hrefill⟩ |
        ⟨own, attributes, children, content, rfl, hitem, hrefill⟩
      · have hitems := bare_list.1 h
        refine ⟨hitems _ (List.mem_of_getElem? hitem), fun inner hinner => ?_⟩
        rw [hrefill]
        exact .list (hset hitems hinner)
      · obtain ⟨rfl, hchildren⟩ := bare_element.1 h
        refine ⟨hchildren _ (List.mem_of_getElem? hitem), fun inner hinner => ?_⟩
        rw [hrefill]
        exact .element (hset hchildren hinner)

theorem bare_wrote {merge : Bool} (w : Wrote x merge path node node') (hx : Bare x)
    (h : Bare node) : Bare node' := by
  induction w with
  | @target node node' hset =>
      rw [Backend.setAt] at hset
      split at hset
      next =>
        split at hset
        next hmerge =>
          cases hset
          exact bare_mergeFields hx h hmerge
        next => cases hset
      next =>
        cases hset
        exact bare_assign hx node
  | @item node inner i slot rest hslot _ ih =>
      obtain ⟨hnode, hrefill⟩ := h.memberSlot (.index i) hslot
      exact hrefill inner (ih hnode)
  | @field node inner name slot rest hslot _ ih =>
      obtain ⟨hnode, hrefill⟩ := h.memberSlot (.name name) hslot
      exact hrefill inner (ih hnode)
  | fresh _ hinsert => exact bare_insertField h hx hinsert
  | @branch node branch node' name next rest _ _ hinsert ih =>
      have hempty : Bare (Backend.emptyFor next) := by
        cases next with
        | index _ => exact .list fun _ hx => absurd hx List.not_mem_nil
        | name _ => exact bare_empty
      exact bare_insertField h (ih hempty) hinsert

section Conversion

theorem bare_insertEach {fields : List (String × Value)}
    (hmade : ∀ field ∈ fields, ∀ tree : Node, ofValue field.2 = .ok tree → Bare tree)
    (h : Bare node) (hinsert : insertEach ofValue fields node = .ok node') : Bare node' := by
  induction fields generalizing node with
  | nil =>
      cases hinsert
      exact h
  | cons field rest ih =>
      obtain ⟨name, v⟩ := field
      obtain ⟨hfirst, hrest⟩ := List.forall_mem_cons.1 hmade
      obtain ⟨next, hnext, hinsert⟩ := bind_eq_ok.1 hinsert
      obtain ⟨child, hchild, hput⟩ := bind_eq_ok.1 hnext
      rw [mapError_eq_ok] at hchild
      refine ih hrest ?_ hinsert
      split at hput
      next hinsert =>
        cases hput
        exact bare_insertField h (hfirst child hchild) hinsert
      next => cases hput

theorem bare_ofValue {v : Value} (h : ofValue v = .ok node) : Bare node := by
  induction v using Tree.ind generalizing node with
  | leaf s =>
      cases s with
      | null =>
          cases h
          exact bare_empty
      | _ =>
          cases h
          exact .text _
  | array items ih =>
      rw [ofValue, ofItems_eq_eachItem] at h
      obtain ⟨trees, htrees, rfl⟩ := map_eq_ok.1 h
      refine .list fun tree htree => ?_
      obtain ⟨v, hv, hread⟩ := exists_of_mem_eachItem htrees htree
      exact ih v hv hread
  | object fields ih =>
      rw [ofValue, ofFields_eq_insertEach] at h
      exact bare_insertEach (fun field hfield _ => ih field hfield) bare_empty h

end Conversion

theorem Grown.bare (h : Grown node) : Bare node := by
  induction h with
  | value hmade => exact bare_ofValue hmade
  | set _ _ hset ihx ih =>
      exact bare_wrote (Backend.wrote_of_setAt (Backend.setAt_of_set hset)) ihx ih

end DataTree.Xml.Node
