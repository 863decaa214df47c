import DataTree.Proofs.Backend.Atomic
import DataTree.Proofs.Backend.Building
import DataTree.Proofs.Backend.Coherent
import DataTree.Proofs.Backend.Reading
import DataTree.Proofs.Backend.Through
import DataTree.Proofs.Effect
import DataTree.Proofs.Xml.Removal

namespace DataTree

namespace Value

/-- Fields have nonempty names, at every depth. -/
inductive FieldsNamed : Value → Prop
  | leaf (s : Scalar) : FieldsNamed (.leaf s)
  | array {items : List Value} (below : ∀ x ∈ items, FieldsNamed x) : FieldsNamed (.array items)
  | object {fields : List (String × Value)} (named : ∀ field ∈ fields, field.1 ≠ "")
      (below : ∀ field ∈ fields, FieldsNamed field.2) : FieldsNamed (.object fields)

end Value

namespace Xml.Node

open Backend (Wrote Erased mergeFields mergeObject memberSlot)

variable {node node' value inner child : Node} {name : String} {path : Path}

def HasName : Node → Prop
  | .element own _ _ _ => own ≠ ""
  | _ => False

/-- At every depth, the children of elements are elements with names, and attributes have names. -/
inductive WellPlaced : Node → Prop
  | text (content : String) : WellPlaced (.text content)
  | list {items : List Node} (below : ∀ x ∈ items, WellPlaced x) : WellPlaced (.list items)
  | element {own : String} {attributes : List (String × String)} {children : List Node}
      {content : String} (attributed : ∀ key ∈ Fields.names attributes, key ≠ "")
      (named : ∀ child ∈ children, child.HasName) (below : ∀ child ∈ children, WellPlaced child) :
      WellPlaced (.element own attributes children content)

theorem hasName_iff : node.HasName ↔ ∃ own, own ≠ "" ∧ isNamed own node = true := by
  cases node with
  | element own attributes children content =>
      simp only [isNamed_element, HasName]
      constructor
      · intro h
        exact ⟨own, h, rfl⟩
      · rintro ⟨_, h, rfl⟩
        exact h
  | _ =>
      refine iff_of_false id ?_
      rintro ⟨_, _, h⟩
      cases h

theorem hasName_named (h : name ≠ "") (node : Node) : (named name node).HasName :=
  hasName_iff.2 ⟨name, h, isNamed_named_self name node⟩

theorem wellPlaced_list {items : List Node} :
    WellPlaced (.list items) ↔ ∀ x ∈ items, WellPlaced x :=
  ⟨fun h => by cases h with | list below => exact below, .list⟩

theorem wellPlaced_element {own content : String} {attributes : List (String × String)}
    {children : List Node} : WellPlaced (.element own attributes children content) ↔
      (∀ key ∈ Fields.names attributes, key ≠ "") ∧
        ∀ child ∈ children, child.HasName ∧ WellPlaced child := by
  constructor
  · intro h
    cases h with
    | element attributed named below => exact ⟨attributed, fun c hc => ⟨named c hc, below c hc⟩⟩
  · rintro ⟨attributed, hchildren⟩
    exact .element attributed (fun c hc => (hchildren c hc).1) fun c hc => (hchildren c hc).2

theorem wellPlaced_empty : WellPlaced empty :=
  wellPlaced_element.2 ⟨fun _ h => absurd h List.not_mem_nil, fun _ h => absurd h List.not_mem_nil⟩

theorem WellPlaced.named (h : WellPlaced node) (name : String) : WellPlaced (named name node) := by
  induction h generalizing name with
  | text content =>
      exact wellPlaced_element.2
        ⟨fun _ h => absurd h List.not_mem_nil, fun _ h => absurd h List.not_mem_nil⟩
  | @list items _ ih =>
      rw [Node.named, namedItems_eq_map]
      refine wellPlaced_element.2 ⟨fun _ h => absurd h List.not_mem_nil, fun c hc => ?_⟩
      obtain ⟨x, hx, rfl⟩ := List.mem_map.1 hc
      exact ⟨hasName_named (by decide) x, ih x hx itemName⟩
  | element attributed hnamed below => exact .element attributed hnamed below

theorem WellPlaced.field (h : WellPlaced node) (hc : Backend.field node name = .ok (some child)) :
    WellPlaced child := by
  cases node with
  | element own attributes children content =>
      have hchildren (c : Node) (hm : c ∈ children.filter (isNamed name)) : WellPlaced c :=
        ((wellPlaced_element.1 h).2 c (List.mem_filter.1 hm).1).2
      rw [field_element] at hc
      split at hc
      next =>
        obtain ⟨s, -, rfl⟩ := Option.map_eq_some_iff.1 (Except.ok.inj hc)
        exact .text s
      next one hone =>
        cases hc
        exact hchildren child (hone ▸ List.mem_singleton_self child)
      next =>
        cases hc
        exact .list hchildren
  | _ => cases hc

theorem WellPlaced.fieldNames (h : WellPlaced node) :
    ∀ name ∈ Backend.fieldNames node, name ≠ "" := by
  intro name hname
  cases node with
  | element own attributes children content =>
      obtain ⟨hattributes, hchildren⟩ := wellPlaced_element.1 h
      have hnames : name ∈ addNames (Fields.names attributes) children := hname
      rcases mem_addNames.1 hnames with hmem | ⟨c, hc, hnamed⟩
      · exact hattributes name hmem
      · obtain ⟨attributes', children', content', rfl⟩ := isNamed_iff.1 hnamed
        exact (hchildren _ hc).1
  | _ => exact absurd hname List.not_mem_nil

section Members

theorem mem_place {c : Node} {children : List Node} (h : c ∈ place name child children) :
    c = child ∨ c ∈ children := by
  induction children with
  | nil => exact .inl (List.mem_singleton.1 h)
  | cons x xs ih =>
      rw [place] at h
      split at h
      next =>
        rcases List.mem_cons.1 h with rfl | h
        · exact .inl rfl
        · exact .inr (List.mem_cons_of_mem _ (List.mem_filter.1 h).1)
      next =>
        rcases List.mem_cons.1 h with rfl | h
        · exact .inr List.mem_cons_self
        · exact (ih h).imp_right (List.mem_cons_of_mem _)

theorem mem_replaceNamed {c : Node} {children : List Node}
    (h : c ∈ replaceNamed name child children) : c = child ∨ c ∈ children := by
  induction children with
  | nil => cases h
  | cons x xs ih =>
      rw [replaceNamed] at h
      split at h
      next => exact (List.mem_cons.1 h).imp_right (List.mem_cons_of_mem _)
      next =>
        rcases List.mem_cons.1 h with rfl | h
        · exact .inr List.mem_cons_self
        · exact (ih h).imp_right (List.mem_cons_of_mem _)

end Members

section Edits

theorem wellPlaced_insertField (h : WellPlaced node) (hc : WellPlaced child) (hname : name ≠ "") :
    WellPlaced (after (Backend.insertField name child node)) := by
  cases node with
  | element own attributes children content =>
      obtain ⟨hattributes, hchildren⟩ := wellPlaced_element.1 h
      refine wellPlaced_element.2 ⟨fun key hkey => hattributes key (Fields.mem_names_of_erase hkey),
        fun c hmem => ?_⟩
      rcases mem_place hmem with rfl | hmem
      · exact ⟨hasName_named hname child, hc.named name⟩
      · exact hchildren c hmem
  | _ => exact h

theorem wellPlaced_removeField (h : WellPlaced node) (name : String) :
    WellPlaced (after (Backend.removeField name node)) := by
  cases node with
  | element own attributes children content =>
      obtain ⟨found, node', hr, -⟩ := LawfulBackend.removeField_ok
        (holdsFields_iff.2 ⟨own, attributes, children, content, rfl⟩) name
      rw [hr]
      obtain ⟨_, _, _, _, kept, he, rfl, -, hkept⟩ := removeField_eq_ok hr
      cases he
      obtain ⟨hattributes, hchildren⟩ := wellPlaced_element.1 h
      refine wellPlaced_element.2 ⟨fun key hkey => hattributes key ?_,
        fun c hc => hchildren c (List.mem_filter.1 hc).1⟩
      rcases hkept with ⟨-, rfl⟩ | ⟨-, rfl⟩
      · exact Fields.mem_names_of_erase hkey
      · exact hkey
  | _ => exact h

theorem wellPlaced_pushItem (h : WellPlaced node) (hc : WellPlaced child) :
    WellPlaced (after (Backend.pushItem child node)) := by
  show WellPlaced (after (pushItem child node))
  cases node with
  | text content => exact h
  | list items =>
      refine wellPlaced_list.2 fun x hx => ?_
      rcases List.mem_append.1 hx with hx | hx
      · exact wellPlaced_list.1 h x hx
      · exact List.mem_singleton.1 hx ▸ hc
  | element own attributes children content =>
      rw [pushItem]
      split
      next => exact h
      next =>
        obtain ⟨hattributes, hchildren⟩ := wellPlaced_element.1 h
        refine wellPlaced_element.2 ⟨hattributes, fun c hmem => ?_⟩
        rcases List.mem_append.1 hmem with hmem | hmem
        · exact hchildren c hmem
        · obtain rfl := List.mem_singleton.1 hmem
          exact ⟨hasName_named (by decide) child, hc.named itemName⟩

theorem wellPlaced_assign (h : WellPlaced value) (node : Node) :
    WellPlaced (Backend.assign node value) := by
  show WellPlaced (assign node value)
  cases node with
  | element own attributes children content =>
      rw [assign]
      split
      next => exact h
      next => exact h.named own
  | _ => exact h

theorem wellPlaced_mergeFields {names : List String} {source : Node} (hs : WellPlaced source)
    (hnames : ∀ name ∈ names, name ≠ "") (h : WellPlaced node) :
    WellPlaced (after (mergeFields names source node)) := by
  induction names generalizing source node with
  | nil => exact h
  | cons name names ih =>
      obtain ⟨hname, hrest⟩ := List.forall_mem_cons.1 hnames
      have hs' := wellPlaced_removeField hs name
      rw [mergeFields]
      cases hr : Backend.removeField name source with
      | error fault source' => exact h
      | ok found source' =>
          rw [hr] at hs'
          cases found with
          | none => exact ih hs' hrest h
          | some c =>
              have hinsert := wellPlaced_insertField h (hs.field (field_removeField hr)) hname
              dsimp only
              rw [after_bind]
              cases hi : Backend.insertField name c node with
              | error fault node' =>
                  rw [hi] at hinsert
                  exact hinsert
              | ok _ node' =>
                  rw [hi] at hinsert
                  exact ih hs' hrest hinsert

theorem wellPlaced_mergeObject (h : WellPlaced node) (hv : WellPlaced value) :
    WellPlaced (after (mergeObject value node)) :=
  wellPlaced_mergeFields hv hv.fieldNames h

end Edits

section Paths

/-- A member of a well placed node is well placed, and the node stays so with another one in its
place that has a name if that one has. -/
theorem WellPlaced.memberSlot (h : WellPlaced node) (key : Key) {slot : Slot Node}
    (hslot : memberSlot node key = .ok (some slot)) : WellPlaced slot.node ∧
      ∀ inner, WellPlaced inner → (slot.node.HasName → inner.HasName) →
        WellPlaced (slot.refill inner) := by
  have hset {children : List Node} {inner : Node}
      (hchildren : ∀ c ∈ children, c.HasName ∧ WellPlaced c)
      (hinner : inner.HasName ∧ WellPlaced inner)
      {others : List Node} (hothers : ∀ c ∈ others, c = inner ∨ c ∈ children) :
      ∀ c ∈ others, c.HasName ∧ WellPlaced c := fun c hc =>
    (hothers c hc).elim (fun he => he ▸ hinner) (hchildren c)
  cases key with
  | name name =>
      obtain ⟨own, attributes, children, content, one, rfl, hone, rfl⟩ := fieldSlot_eq_some hslot
      obtain ⟨hattributes, hchildren⟩ := wellPlaced_element.1 h
      have hmem : one ∈ children.filter (isNamed name) := hone ▸ List.mem_singleton_self one
      obtain ⟨hname, hbelow⟩ := hchildren one (List.mem_filter.1 hmem).1
      exact ⟨hbelow, fun inner hinner hkept => wellPlaced_element.2 ⟨hattributes,
        hset hchildren ⟨hkept hname, hinner⟩ fun c => mem_replaceNamed⟩⟩
  | index i =>
      rcases itemSlot_eq_some hslot with ⟨items, rfl, hitem, hrefill⟩ |
        ⟨own, attributes, children, content, rfl, hitem, hrefill⟩
      · have hitems := wellPlaced_list.1 h
        refine ⟨hitems _ (List.mem_of_getElem? hitem), fun inner hinner _ => ?_⟩
        rw [hrefill]
        refine wellPlaced_list.2 fun x hx => ?_
        rcases List.mem_or_eq_of_mem_set hx with hx | rfl
        · exact hitems x hx
        · exact hinner
      · obtain ⟨hattributes, hchildren⟩ := wellPlaced_element.1 h
        obtain ⟨hname, hbelow⟩ := hchildren _ (List.mem_of_getElem? hitem)
        refine ⟨hbelow, fun inner hinner hkept => ?_⟩
        rw [hrefill]
        exact wellPlaced_element.2 ⟨hattributes, hset hchildren ⟨hkept hname, hinner⟩
          fun c hc => (List.mem_or_eq_of_mem_set hc).symm⟩

theorem hasName_wrote {merge : Bool} (w : Wrote value merge path node node')
    (h : node.HasName) : node'.HasName := by
  obtain ⟨own, hne, hnamed⟩ := hasName_iff.1 h
  exact hasName_iff.2 ⟨own, hne, isNamed_wrote w hne hnamed⟩

theorem hasName_erased (e : Erased path node node') (hne : path ≠ []) (h : node.HasName) :
    node'.HasName := by
  obtain ⟨own, hown, hnamed⟩ := hasName_iff.1 h
  exact hasName_iff.2 ⟨own, hown, (isNamed_erased e hne).trans hnamed⟩

theorem wellPlaced_target (merge : Bool) (h : WellPlaced node) (hv : WellPlaced value) :
    WellPlaced (after (Backend.setAt value merge [] node)) := by
  rw [Backend.setAt]
  split
  next =>
    have hmerge := wellPlaced_mergeObject h hv
    cases hm : mergeObject value node <;> rw [hm] at hmerge <;> exact hmerge
  next => exact wellPlaced_assign hv node

theorem wellPlaced_wrote {merge : Bool} (w : Wrote value merge path node node')
    (h : WellPlaced node) (hv : WellPlaced value) (hp : NamesNonempty path) :
    WellPlaced node' := by
  induction w with
  | target hset =>
      have htarget := wellPlaced_target merge h hv
      rwa [hset] at htarget
  | @item node inner i slot rest hslot w ih =>
      obtain ⟨hnode, hrefill⟩ := h.memberSlot (.index i) hslot
      exact hrefill inner (ih hnode hp.tail) (hasName_wrote w)
  | @field node inner name slot rest hslot w ih =>
      obtain ⟨hnode, hrefill⟩ := h.memberSlot (.name name) hslot
      exact hrefill inner (ih hnode hp.tail) (hasName_wrote w)
  | fresh _ hinsert =>
      have hfresh := wellPlaced_insertField h hv hp.head
      rwa [hinsert] at hfresh
  | @branch node branch node' name next rest _ _ hinsert ih =>
      have hempty : WellPlaced (Backend.emptyFor next) := by
        cases next with
        | index _ => exact .list fun _ hx => absurd hx List.not_mem_nil
        | name _ => exact wellPlaced_empty
      have hbranch := wellPlaced_insertField h (ih hempty hp.tail) hp.head
      rwa [hinsert] at hbranch

theorem wellPlaced_setAt {merge : Bool} (h : WellPlaced node) (hv : WellPlaced value)
    (hp : NamesNonempty path) : WellPlaced (after (Backend.setAt value merge path node)) := by
  cases hset : Backend.setAt value merge path node with
  | ok _ node' => exact wellPlaced_wrote (Backend.wrote_of_setAt hset) h hv hp
  | error e node' =>
      obtain rfl := Backend.setAt_error hset
      exact h

theorem wellPlaced_erased (e : Erased path node node') (h : WellPlaced node) :
    WellPlaced node' := by
  induction e with
  | root => exact wellPlaced_empty
  | @last node node' name found hremove =>
      have hlast := wellPlaced_removeField h name
      rwa [hremove] at hlast
  | @field node inner name slot next rest hslot e ih =>
      obtain ⟨hnode, hrefill⟩ := h.memberSlot (.name name) hslot
      exact hrefill inner (ih hnode) (hasName_erased e (List.cons_ne_nil _ _))

end Paths

section Conversion

theorem exists_insertEach {fields : List (String × Value)}
    (hnamed : ∀ field ∈ fields, field.1 ≠ "")
    (hmade : ∀ field ∈ fields, ∃ tree : Node, ofValue field.2 = .ok tree ∧ WellPlaced tree)
    (hholds : Backend.HoldsFields node) (h : WellPlaced node) :
    ∃ tree : Node, insertEach ofValue fields node = .ok tree ∧ WellPlaced tree := by
  induction fields generalizing node with
  | nil => exact ⟨node, rfl, h⟩
  | cons field rest ih =>
      obtain ⟨name, x⟩ := field
      obtain ⟨⟨child, hchild, hc⟩, hrest⟩ := List.forall_mem_cons.1 hmade
      obtain ⟨hname, hnames⟩ := List.forall_mem_cons.1 hnamed
      obtain ⟨node', hinsert, hholds'⟩ := LawfulBackend.insertField_ok hholds name child
      have hnode' := wellPlaced_insertField h hc hname
      rw [hinsert] at hnode'
      obtain ⟨tree, htree, hwell⟩ := ih hnames hrest hholds' hnode'
      refine ⟨tree, ?_, hwell⟩
      rw [insertEach, insertMade_of_ok hchild hinsert]
      exact htree

theorem exists_ofValue {v : Value} (h : v.FieldsNamed) :
    ∃ tree : Node, ofValue v = .ok tree ∧ WellPlaced tree := by
  induction h with
  | leaf s =>
      cases s with
      | null => exact ⟨_, rfl, wellPlaced_empty⟩
      | _ => exact ⟨_, rfl, .text _⟩
  | @array items _ ih =>
      have hmade (x : Value) (hx : x ∈ items) : ∃ tree : Node, ofValue x = .ok tree :=
        (ih x hx).imp fun _ h => h.1
      obtain ⟨trees, htrees⟩ := exists_eachItem hmade 0
      refine ⟨.list trees, ?_, wellPlaced_list.2 fun tree htree => ?_⟩
      · rw [ofValue, ofItems_eq_eachItem, htrees]
        rfl
      · obtain ⟨x, hx, hread⟩ := exists_of_mem_eachItem htrees htree
        obtain ⟨tree', htree', hwell⟩ := ih x hx
        exact Except.ok.inj (htree'.symm.trans hread) ▸ hwell
  | object named _ ih =>
      rw [ofValue, ofFields_eq_insertEach]
      exact exists_insertEach named ih (holdsFields_iff.2 ⟨_, _, _, _, rfl⟩) wellPlaced_empty

end Conversion

/-- What is left of a node by every operation, and what is given out by it, is well placed. The
operations may fail; what a failed edit leaves counts as well. -/
structure StaysPlaced (node value : Node) : Prop where
  insertField : ∀ name, name ≠ "" → WellPlaced (after (Backend.insertField name value node))
  removeField : ∀ name, WellPlaced (after (Backend.removeField name node))
  removed : ∀ name found node', Backend.removeField name node = .ok (some found) node' →
    WellPlaced found
  pushItem : WellPlaced (after (Backend.pushItem value node))
  mergeObject : WellPlaced (after (Backend.mergeObject value node))
  assign : WellPlaced (Backend.assign node value)
  setAt : ∀ merge path, NamesNonempty path →
    WellPlaced (after (Backend.setAt value merge path node))
  set : ∀ merge path tree, NamesNonempty path → Backend.set node path value merge = .ok tree →
    WellPlaced tree
  remove : ∀ path tree, Backend.remove path node = .ok tree → WellPlaced tree

/-- Well placed trees are all that is ever made of well placed trees and of values, if the names are
nonempty. -/
theorem stays_placed (h : WellPlaced node) (hv : WellPlaced value) :
    StaysPlaced node value ∧
      ∀ v : Value, v.FieldsNamed → ∃ tree : Node, ofValue v = .ok tree ∧ WellPlaced tree := by
  refine ⟨?_, fun v => exists_ofValue⟩
  exact {
    insertField := fun name => wellPlaced_insertField h hv
    removeField := fun name => wellPlaced_removeField h name
    removed := fun name found node' hr => h.field (field_removeField hr)
    pushItem := wellPlaced_pushItem h hv
    mergeObject := wellPlaced_mergeObject h hv
    assign := wellPlaced_assign hv node
    setAt := fun merge path hp => wellPlaced_setAt h hv hp
    set := fun merge path tree hp hset =>
      wellPlaced_wrote (Backend.wrote_of_setAt (Backend.setAt_of_set hset)) h hv hp
    remove := fun path tree hr => wellPlaced_erased (Backend.erased_of_remove hr) h }

/-- A list of a text, of nothing and of an element without a name is written over a child of one of
two elements of a name. -/
theorem stays_placed_repeated :
    let node : Node := .element "r" [("id", "7")]
      [.element "a" [] [.element "b" [] [] "1"] "", .element "a" [("k", "")] [] "2"] ""
    let value : Node := .list [.text "x", .list [], .element "" [] [.element "c" [] [] ""] ""]
    let v : Value := .object [("a", .array [Value.null, .object [("b", Value.string "")]])]
    (node.WellPlaced ∧ value.WellPlaced ∧ StaysPlaced node value) ∧
      (∃ tree, Backend.set node [.index 0, .name "b"] value false = .ok tree ∧ tree.WellPlaced) ∧
      v.FieldsNamed ∧ ∃ tree : Node, ofValue v = .ok tree ∧ tree.WellPlaced := by
  intro node value v
  have hnode : node.WellPlaced := by
    simp [node, wellPlaced_element, HasName, Fields.names]
  have hvalue : value.WellPlaced := by
    simp [value, wellPlaced_list, wellPlaced_element, WellPlaced.text, HasName, Fields.names]
  have hnull : (Value.null).FieldsNamed := .leaf _
  have hobject : Value.FieldsNamed (.object [("b", Value.string "")]) :=
    .object (List.forall_mem_singleton.2 (by decide)) (List.forall_mem_singleton.2 (.leaf _))
  have hv : v.FieldsNamed := .object (List.forall_mem_singleton.2 (by decide))
    (List.forall_mem_singleton.2 (.array (List.forall_mem_cons.2
      ⟨hnull, List.forall_mem_singleton.2 hobject⟩)))
  obtain ⟨hkept, hmade⟩ := stays_placed hnode hvalue
  have hpath : NamesNonempty [.index 0, .name "b"] := by decide
  exact ⟨⟨hnode, hvalue, hkept⟩, ⟨_, rfl, hkept.set false _ _ hpath rfl⟩, hv, hmade v hv⟩

end Xml.Node

end DataTree
