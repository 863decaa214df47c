import DataTree.Proofs.Xml.Reading

namespace DataTree.Xml.Node

open Backend (Wrote mergeFields mergeObject)

variable {t t' x node node' : Node} {name : String}

theorem kind_insertField {child : Node} (h : Backend.insertField name child node = .ok () node') :
    Backend.kind node' = .object := by
  obtain ⟨own, attributes, children, content, rfl, rfl⟩ := insertField_eq_ok h
  apply kind_of_children
  cases children with
  | nil => exact List.cons_ne_nil _ _
  | cons first rest =>
      rw [place]
      split <;> exact List.cons_ne_nil _ _

theorem kind_mergeFields {names : List String} {source : Node} (hk : Backend.kind node = .object)
    (h : mergeFields names source node = .ok () node') : Backend.kind node' = .object := by
  induction names generalizing source node with
  | nil =>
      cases h
      exact hk
  | cons first names ih =>
      obtain ⟨found, source', -, hfound⟩ := Backend.mergeFields_cons_eq_ok h
      cases found with
      | none => exact ih hk hfound
      | some child =>
          obtain ⟨next, hinsert, hmerge⟩ := hfound
          exact ih (kind_insertField hinsert) hmerge

theorem mergeObject_of_wrote {path : Path} (w : Wrote x true path t t')
    (hget : Backend.get t path = .ok (some node)) (hnode : Backend.kind node = .object)
    (hx : Backend.kind x = .object) :
    ∃ node', Backend.get t' path = .ok (some node') ∧ mergeObject x node = .ok () node' ∧
      ∀ own, isNamed own t' = isNamed own t := by
  induction w with
  | @target t t' hset =>
      cases hget
      rw [Backend.setAt, if_pos (by simp [hnode, hx])] at hset
      split at hset
      next hm =>
        cases hset
        exact ⟨_, rfl, hm, fun own => isNamed_mergeFields hm⟩
      next => cases hset
  | @item t inner i slot rest hslot w ih =>
      obtain ⟨child, hchild, hbelow⟩ := Backend.get_cons_eq_some.1 hget
      obtain rfl : slot.node = child := by
        rw [Backend.child, item_slot hslot] at hchild
        exact Option.some.inj (Except.ok.inj hchild)
      obtain ⟨node', hget', hm, -⟩ := ih hbelow
      exact ⟨node', Backend.get_cons_eq_some.2 ⟨inner, item_refill_self hslot inner, hget'⟩, hm,
        fun own => isNamed_item hslot inner⟩
  | @field t inner name slot rest hslot w ih =>
      obtain ⟨child, hchild, hbelow⟩ := Backend.get_cons_eq_some.1 hget
      obtain rfl : slot.node = child := by
        rw [Backend.child, field_slot hslot] at hchild
        exact Option.some.inj (Except.ok.inj hchild)
      obtain ⟨node', hget', hm, hown⟩ := ih hbelow
      have hinner : isNamed name inner = true := (hown name).trans (isNamed_slot hslot)
      exact ⟨node', Backend.get_cons_eq_some.2 ⟨inner, field_refill_self hslot hinner, hget'⟩, hm,
        fun own => isNamed_refill hslot⟩
  | @fresh t t' name hslot hinsert =>
      -- all that can be found there is the text of an attribute
      obtain ⟨own, attributes, children, content, rfl, hnone⟩ := fieldSlot_eq_none hslot
      obtain ⟨child, hchild, hbelow⟩ := Backend.get_cons_eq_some.1 hget
      change Backend.field _ name = _ at hchild
      rw [field_element, hnone] at hchild
      obtain ⟨s, -, rfl⟩ := Option.map_eq_some_iff.1 (Except.ok.inj hchild)
      cases hbelow
      cases hnode
  | branch hslot _ _ _ => exact absurd hget (get_of_fieldSlot_none hslot (List.cons_ne_nil _ _))

/-- Elements that are built up field by field. -/
inductive Built : Node → Prop
  | object : Built Backend.object
  | insertField {node node' child : Node} {name : String} : Built node →
      Backend.insertField name child node = .ok () node' → Built node'

theorem Built.plain (h : Built x) : Plain x := by
  induction h with
  | object => exact plain_object
  | insertField _ hinsert ih => exact plain_insertField hinsert ih

theorem Built.kind_eq (h : Built x) (hne : Backend.fieldNames x ≠ []) :
    Backend.kind x = .object := by
  cases h with
  | object => exact absurd rfl hne
  | insertField _ hinsert => exact kind_insertField hinsert

theorem fieldValue_eq_none : Backend.fieldValue node name = .ok none ↔
    Backend.field node name = .ok none := by
  rw [Backend.fieldValue]
  cases hf : Backend.field node name with
  | error fault => constructor <;> intro h <;> cases h
  | ok found =>
      cases found with
      | none => exact ⟨fun _ => rfl, fun _ => rfl⟩
      | some child =>
          obtain ⟨v, hv⟩ := exists_toValue child
          simp only [hv]
          constructor <;> intro h <;> cases h

theorem fieldValue_eq_some {v : Value} : Backend.fieldValue node name = .ok (some v) ↔
    ∃ c, Backend.field node name = .ok (some c) ∧ toValue c = .ok v := by
  constructor
  · intro h
    rw [Backend.fieldValue] at h
    split at h
    next => cases h
    next => cases h
    next c hc =>
      obtain ⟨w, hw, he⟩ := map_eq_ok.1 h
      exact ⟨c, hc, Option.some.inj he ▸ hw⟩
  · rintro ⟨c, hc, hv⟩
    exact fieldValue_of_field hc hv

theorem fieldValue_mergeObject_of_notMem (h : mergeObject x node = .ok () node')
    (hname : Backend.field x name = .ok none) :
    Backend.fieldValue node' name = Backend.fieldValue node name := by
  have hnames : name ∉ Backend.fieldNames x := by
    intro hmem
    obtain ⟨c, hc⟩ := mem_fieldNames.1 hmem
    cases hname.symm.trans hc
  rw [Backend.fieldValue, Backend.fieldValue, field_mergeFields_of_notMem h hnames]

theorem fieldValue_mergeObject (h : mergeObject x node = .ok () node') (hd : DistinctAttributes x)
    {v : Value} (hv : Backend.fieldValue x name = .ok (some v)) :
    Backend.fieldValue node' name = .ok (some (inElement v)) := by
  obtain ⟨c, hc, hread⟩ := fieldValue_eq_some.1 hv
  have hmem : name ∈ Backend.fieldNames x := mem_fieldNames.2 ⟨c, hc⟩
  exact fieldValue_eq_some.2 ⟨c.named name, field_mergeFields h (nodup_fieldNames hd) hmem hc,
    toValue_named_field hc hread⟩

theorem inElement_of_plain (hx : Plain x) {v : Value}
    (h : Backend.fieldValue x name = .ok (some v)) : inElement v = v := by
  obtain ⟨c, hc, hv⟩ := fieldValue_eq_some.1 h
  exact inElement_of_isNamed (hx.2 name c hc) hv

/-- An object that is merged into an object leaves the fields of other names as they read, and its
own fields read there as they do in it: as a whole if it was built field by field, and else but for
lists, which become the items of an element, and empty attributes, which become empty elements. -/
theorem toValue_set_merging {path : Path} (hget : Backend.get t path = .ok (some node))
    (hnode : Backend.kind node = .object)
    (hx : Backend.kind x = .object ∨ Built x ∧ Backend.fieldNames x ≠ [])
    (hd : DistinctAttributes x) (h : Backend.set t path x true = .ok t') :
    ∃ node' fields news fields', Backend.get t' path = .ok (some node') ∧
      toValue node = .ok (.object fields) ∧ toValue x = .ok (.object news) ∧
      toValue node' = .ok (.object fields') ∧
      (∀ name, List.lookup name news = none →
        List.lookup name fields' = List.lookup name fields) ∧
      (∀ name v, List.lookup name news = some v →
        List.lookup name fields' = some (inElement v) ∧ (Built x → inElement v = v)) := by
  have hx : Backend.kind x = .object := hx.elim id fun hbuilt => hbuilt.1.kind_eq hbuilt.2
  have w := Backend.wrote_of_setAt (Backend.setAt_of_set h)
  obtain ⟨node', hget', hm, -⟩ := mergeObject_of_wrote w hget hnode hx
  obtain ⟨fields, hfields, hread⟩ := exists_toValue_object hnode
  obtain ⟨news, hnews, hreadx⟩ := exists_toValue_object hx
  obtain ⟨fields', hfields', hread'⟩ := exists_toValue_object (kind_mergeFields hnode hm)
  refine ⟨node', fields, news, fields', hget', hfields, hnews, hfields', ?_, ?_⟩
  · intro name hname
    have hnone := (hreadx name).trans (congrArg Except.ok hname)
    have hsame := fieldValue_mergeObject_of_notMem hm (fieldValue_eq_none.1 hnone)
    rw [hread', hread] at hsame
    exact Except.ok.inj hsame
  · intro name v hname
    have hsome := (hreadx name).trans (congrArg Except.ok hname)
    have hmoved := fieldValue_mergeObject hm hd hsome
    rw [hread'] at hmoved
    exact ⟨Except.ok.inj hmoved, fun hbuilt => inElement_of_plain hbuilt.plain hsome⟩

theorem toValue_set_merging_mixed :
    let t : Node := .element "r" []
      [.element "p" [("id", "7")] [.element "a" [] [] "1", .element "b" [] [] "2"] ""] ""
    let x : Node := .element "" [("c", "3")] [.element "b" [] [] "4", .element "b" [] [] "5"] ""
    ∃ t' node node' fields news fields', Backend.set t [.name "p"] x true = .ok t' ∧
      Backend.get t [.name "p"] = .ok (some node) ∧
      Backend.get t' [.name "p"] = .ok (some node') ∧
      toValue node = .ok (.object fields) ∧ toValue x = .ok (.object news) ∧
      toValue node' = .ok (.object fields') ∧
      (∀ name, List.lookup name news = none →
        List.lookup name fields' = List.lookup name fields) ∧
      (∀ name v, List.lookup name news = some v →
        List.lookup name fields' = some (inElement v) ∧ (Built x → inElement v = v)) := by
  intro t x
  have hget : Backend.get t [.name "p"] = .ok (some
      (.element "p" [("id", "7")] [.element "a" [] [] "1", .element "b" [] [] "2"] "")) := rfl
  have hset : ∃ t', Backend.set t [.name "p"] x true = .ok t' := ⟨_, rfl⟩
  obtain ⟨t', ht'⟩ := hset
  have hd : DistinctAttributes x :=
    Fields.distinct_cons.2 ⟨List.not_mem_nil, Fields.distinct_nil⟩
  obtain ⟨node', fields, news, fields', hget', h⟩ :=
    toValue_set_merging hget rfl (.inl rfl) hd ht'
  exact ⟨t', _, node', fields, news, fields', ht', hget, hget', h⟩

/-- A list, an empty attribute and an object without fields do not read after a merge as they did,
and the last one takes the place of all that was there. -/
theorem toValue_set_merging_reshaped :
    let node : Node := .element "r" [] [.element "b" [] [] "1"] ""
    let several : Node := .element "" [] [.element "a" [] [] "2", .element "a" [] [] "3"] ""
    let hollow : Node := .element "" [("a", "")] [] ""
    let items : Value := .array [.leaf (.string "2"), .leaf (.string "3")]
    (Backend.kind node = .object ∧ Backend.kind several = .object ∧ Backend.kind hollow = .object ∧
      Built Backend.object) ∧
    ((Backend.set node [] several true).bind toValue =
        .ok (.object [("b", .leaf (.string "1")), ("a", .object [("item", items)])]) ∧
      toValue several = .ok (.object [("a", items)])) ∧
    ((Backend.set node [] hollow true).bind toValue =
        .ok (.object [("b", .leaf (.string "1")), ("a", Value.null)]) ∧
      toValue hollow = .ok (.object [("a", .leaf (.string ""))])) ∧
    (Backend.set node [] Backend.object true).bind toValue = .ok Value.null := by
  refine ⟨⟨rfl, rfl, rfl, .object⟩, ⟨?_, ?_⟩, ⟨?_, ?_⟩, ?_⟩
  all_goals with_unfolding_all rfl

end DataTree.Xml.Node
