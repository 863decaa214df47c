import DataTree.Proofs.Backend.Views

namespace DataTree.Xml.Node

variable {node x c : Node} {name other : String} {v : Value} {fields : List (String × Value)}

theorem toValue_text (s : String) : toValue (Node.text s) = .ok (.leaf (.string s)) := by
  rw [Backend.toValue_of_scalar rfl]
  rfl

theorem toValue_list (items : List Node) :
    toValue (Node.list items) = (eachItem toValue 0 items).map Tree.array :=
  Backend.toValue_of_array rfl rfl

theorem toValue_bare (own content : String) :
    toValue (Node.element own [] [] content) =
      .ok (if content = "" then .null else .leaf (.string content)) := by
  by_cases h : content = ""
  · subst h
    exact Backend.toValue_of_null rfl
  · have hkind : Backend.kind (Node.element own [] [] content) = .scalar .string := by
      show kind _ = _
      simp [kind, h]
    rw [Backend.toValue_of_scalar hkind, if_neg h]
    show (scalar _ _).mapError _ = _
    rw [scalar, if_pos h]
    rfl

theorem fieldValue_of_field (h : Backend.field node name = .ok (some c)) (hv : toValue c = .ok v) :
    Backend.fieldValue node name = .ok (some v) := by
  rw [Backend.fieldValue, h]
  simp only [hv]
  rfl

theorem exists_toValue_object (h : Backend.kind node = .object) :
    ∃ fields, toValue node = .ok (.object fields) ∧
      ∀ name, Backend.fieldValue node name = .ok (List.lookup name fields) := by
  obtain ⟨v, hv⟩ := exists_toValue node
  have hread := hv
  rw [Backend.toValue_of_object h, map_eq_ok] at hread
  obtain ⟨fields, hfields, rfl⟩ := hread
  refine ⟨fields, hv, fun name => ?_⟩
  obtain ⟨found, hfound⟩ := LawfulBackend.holdsFields h name
  cases found with
  | none =>
      have hname : name ∉ Backend.fieldNames node := by
        intro hmem
        obtain ⟨c, hc⟩ := mem_fieldNames.1 hmem
        cases hfound.symm.trans hc
      rw [lookup_eachField_of_notMem hfields hname, Backend.fieldValue, hfound]
  | some child =>
      obtain ⟨y, hy⟩ := exists_toValue child
      have hvalue := fieldValue_of_field hfound hy
      rw [lookup_eachField hfields (mem_fieldNames.2 ⟨child, hfound⟩) hvalue, hvalue]

/-- What a value reads as once it stands in an element: an array is the field of its items there,
and an empty text is nothing. -/
def inElement : Value → Value
  | .array items => .object [(itemName, .array items)]
  | .leaf (.string "") => .null
  | v => v

theorem inElement_string {s : String} (hs : s ≠ "") :
    inElement (.leaf (.string s)) = .leaf (.string s) := by
  rw [inElement]
  · intro items he
    cases he
  · intro he
    cases he
    exact hs rfl

theorem inElement_of_isNamed (hc : isNamed name c = true) (h : toValue c = .ok v) :
    inElement v = v := by
  obtain ⟨attributes, children, content, rfl⟩ := isNamed_iff.1 hc
  rcases bare_or_object name attributes children content with ⟨rfl, rfl⟩ | hobject
  · cases (toValue_bare name content).symm.trans h
    split
    next => rfl
    next hcontent =>
      exact inElement_string hcontent
  · rw [Backend.toValue_of_object hobject, map_eq_ok] at h
    obtain ⟨fields, -, rfl⟩ := h
    rfl

theorem toValue_named_text (name s : String) :
    toValue (named name (.text s)) = .ok (inElement (.leaf (.string s))) := by
  rw [named, toValue_bare]
  split
  next hs => rw [hs]; rfl
  next hs => rw [inElement_string hs]

theorem toValue_named (name : String) (hc : isNamed other c = true) :
    toValue (named name c) = toValue c := by
  obtain ⟨attributes, children, content, rfl⟩ := isNamed_iff.1 hc
  rw [named]
  rcases bare_or_object name attributes children content with ⟨rfl, rfl⟩ | hobject
  · rw [toValue_bare, toValue_bare]
  · rw [Backend.toValue_of_object hobject,
      @Backend.toValue_of_object _ _ (element other attributes children content) hobject]
    rfl

section Items

variable {items : List Node}

theorem filter_namedItems (items : List Node) :
    (namedItems items).filter (isNamed itemName) = namedItems items := by
  rw [namedItems_eq_map, List.filter_eq_self]
  intro y hy
  obtain ⟨z, -, rfl⟩ := List.mem_map.1 hy
  exact isNamed_named_self itemName z

theorem addNames_namedItems (items : List Node) :
    addNames [itemName] (namedItems items) = [itemName] := by
  induction items with
  | nil => rfl
  | cons y ys ih =>
      obtain ⟨attributes, children, content, he⟩ := isNamed_iff.1 (isNamed_named_self itemName y)
      rw [namedItems, he, addNames, if_pos (by simp), ih]

theorem fieldNames_named_list (name : String) (hne : items ≠ []) :
    Backend.fieldNames (named name (.list items)) = [itemName] := by
  obtain ⟨y, ys, rfl⟩ := List.exists_cons_of_ne_nil hne
  obtain ⟨attributes, children, content, he⟩ := isNamed_iff.1 (isNamed_named_self itemName y)
  rw [named, namedItems, he]
  exact addNames_namedItems ys

theorem toValue_namedItems (hitems : ∀ y ∈ items, isNamed name y = true) :
    toValue (Node.list (namedItems items)) = toValue (Node.list items) := by
  rw [toValue_list, toValue_list, namedItems_eq_map, eachItem_map,
    eachItem_congr fun y hy => toValue_named itemName (hitems y hy)]

theorem field_named_list (name : String) (items : List Node) :
    Backend.field (named name (.list items)) itemName =
      match namedItems items with
      | [] => .ok none
      | [one] => .ok (some one)
      | several => .ok (some (.list several)) := by
  rw [named, field_element, filter_namedItems]
  rfl

theorem toValue_named_list_of_field (hne : items ≠ [])
    (hc : Backend.field (named name (.list items)) itemName = .ok (some c))
    (hv : toValue c = .ok v) :
    toValue (named name (.list items)) = .ok (.object [(itemName, v)]) := by
  have hkind : Backend.kind (named name (.list items)) = .object := by
    rw [named]
    apply kind_of_children
    rwa [namedItems_eq_map, Ne, List.map_eq_nil_iff]
  have hvalue := fieldValue_of_field hc hv
  rw [Backend.toValue_of_object hkind, fieldNames_named_list name hne]
  have hfields : eachField (Backend.fieldValue (named name (.list items)))
      (Fields.names [(itemName, v)]) = .ok [(itemName, v)] := by
    apply eachField_names
    intro field hm
    obtain rfl := List.mem_singleton.1 hm
    exact hvalue
  exact congrArg (Except.map Tree.object) hfields

theorem toValue_named_list (hitems : ∀ y ∈ items, isNamed name y = true)
    (hlen : 2 ≤ items.length) {v : Value} (hv : toValue (Node.list items) = .ok v) :
    toValue (named name (.list items)) = .ok (inElement v) := by
  obtain ⟨vs, -, rfl⟩ := map_eq_ok.1 ((toValue_list items).symm.trans hv)
  obtain ⟨y, z, rest, rfl⟩ : ∃ y z rest, items = y :: z :: rest := by
    rcases items with _ | ⟨y, _ | ⟨z, rest⟩⟩
    · simp at hlen
    · simp at hlen
    · exact ⟨y, z, rest, rfl⟩
  exact toValue_named_list_of_field (List.cons_ne_nil _ _) (field_named_list name _)
    ((toValue_namedItems hitems).trans hv)

end Items

theorem toValue_named_field (h : Backend.field x name = .ok (some c)) (hv : toValue c = .ok v) :
    toValue (c.named name) = .ok (inElement v) := by
  cases x with
  | element own attributes children content =>
      rw [field_element] at h
      have hnamed (y : Node) (hy : y ∈ children.filter (isNamed name)) : isNamed name y = true :=
        (List.mem_filter.1 hy).2
      split at h
      next =>
        obtain ⟨s, -, rfl⟩ := Option.map_eq_some_iff.1 (Except.ok.inj h)
        cases (toValue_text s).symm.trans hv
        exact toValue_named_text name s
      next one hone =>
        cases h
        have hc := hnamed c (hone ▸ List.mem_singleton_self c)
        rw [named_of_isNamed hc, hv, inElement_of_isNamed hc hv]
      next hnil hmore =>
        cases h
        refine toValue_named_list hnamed ?_ hv
        rcases hfilter : children.filter (isNamed name) with _ | ⟨one, _ | ⟨two, rest⟩⟩
        · exact absurd hfilter hnil
        · exact absurd hfilter (hmore one)
        · simp
  | _ => cases h

end DataTree.Xml.Node
