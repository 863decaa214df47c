import DataTree.Proofs.Xml.PathLaw

namespace DataTree.Xml.Node

open Backend (Wrote mergeFields mergeObject)

variable {x node node' m : Node} {name other : String}

/-- An element without attributes and without repeated names among its children. -/
def Plain (node : Node) : Prop :=
  (∃ own children content, node = .element own [] children content) ∧
    ∀ name c, Backend.field node name = .ok (some c) → isNamed name c = true

theorem plain_object : Plain Backend.object := by
  refine ⟨⟨_, _, _, rfl⟩, fun name c h => ?_⟩
  cases h

theorem plain_insertField {child : Node} (h : Backend.insertField name child node = .ok () node')
    (hp : Plain node) : Plain node' := by
  obtain ⟨⟨own, children, content, rfl⟩, hnamed⟩ := hp
  refine ⟨?_, fun key c hc => ?_⟩
  · cases h
    exact ⟨_, _, _, rfl⟩
  · by_cases hkey : key = name
    · subst hkey
      rw [field_insertField_self h] at hc
      cases hc
      exact isNamed_named_self key child
    · rw [field_insertField_of_ne h hkey] at hc
      exact hnamed key c hc

theorem plain_wrote {merge : Bool} {path : Path} (w : Wrote x merge path node node')
    (hne : path ≠ []) (honly : OnlyNames path) (hnames : NamesNonempty path) (hp : Plain node) :
    Plain node' := by
  cases w with
  | target _ => exact absurd rfl hne
  | @item _ _ i _ _ _ _ => cases honly (.index i) List.mem_cons_self
  | @field _ inner name slot _ hslot w =>
      have hinner := isNamed_wrote w hnames.head (isNamed_slot hslot)
      refine ⟨?_, fun key c hc => ?_⟩
      · obtain ⟨own, children, content, rfl⟩ := hp.1
        obtain ⟨_, _, _, _, one, hnode, -, rfl⟩ := fieldSlot_eq_some hslot
        cases hnode
        exact ⟨_, _, _, rfl⟩
      · by_cases hkey : key = name
        · subst hkey
          rw [field_refill_self hslot hinner] at hc
          cases hc
          exact hinner
        · rw [field_refill_of_ne hslot hkey hinner] at hc
          exact hp.2 key c hc
  | fresh _ hinsert => exact plain_insertField hinsert hp
  | branch _ _ hinsert => exact plain_insertField hinsert hp

section Merge

variable {names : List String} {source : Node}

theorem field_mergeFields_of_notMem (h : mergeFields names source node = .ok () node')
    (hname : name ∉ names) : Backend.field node' name = Backend.field node name := by
  induction names generalizing source node with
  | nil =>
      cases h
      rfl
  | cons first names ih =>
      rw [List.mem_cons, not_or] at hname
      obtain ⟨hne, hrest⟩ := hname
      obtain ⟨found, source', -, hfound⟩ := Backend.mergeFields_cons_eq_ok h
      cases found with
      | none => exact ih hfound hrest
      | some child =>
          obtain ⟨next, hinsert, hmerge⟩ := hfound
          rw [ih hmerge hrest, field_insertField_of_ne hinsert hne]

theorem field_mergeFields (h : mergeFields names source node = .ok () node') (hn : names.Nodup)
    (hmem : name ∈ names) {c : Node} (hname : Backend.field source name = .ok (some c)) :
    Backend.field node' name = .ok (some (c.named name)) := by
  induction names generalizing source node with
  | nil => cases hmem
  | cons first names ih =>
      obtain ⟨hfirst, hrest⟩ := List.nodup_cons.1 hn
      obtain ⟨found, source', hremove, hfound⟩ := Backend.mergeFields_cons_eq_ok h
      by_cases hne : name = first
      · subst hne
        obtain rfl : found = some c := by
          rw [field_removeField hremove] at hname
          exact Except.ok.inj hname
        obtain ⟨next, hinsert, hmerge⟩ := hfound
        rw [field_mergeFields_of_notMem hmerge hfirst, field_insertField_self hinsert]
      · have hmem' : name ∈ names := (List.mem_cons.1 hmem).resolve_left hne
        have hname' : Backend.field source' name = .ok (some c) := by
          rw [field_removeField_of_ne hremove hne, hname]
        cases found with
        | none => exact ih hfound hrest hmem' hname'
        | some child =>
            obtain ⟨next, -, hmerge⟩ := hfound
            exact ih hmerge hrest hmem' hname'

end Merge

theorem mem_addNames {known : List String} {nodes : List Node} :
    name ∈ addNames known nodes ↔ name ∈ known ∨ ∃ c ∈ nodes, isNamed name c = true := by
  induction nodes generalizing known with
  | nil => simp [addNames]
  | cons first rest ih =>
      cases first with
      | element own attributes children content =>
          have hown : name ∈ (if known.contains own then known else known ++ [own]) ↔
              name ∈ known ∨ own = name := by
            split
            next hc =>
              have hin : own ∈ known := by simpa using hc
              exact ⟨.inl, fun h => h.elim id fun he => he ▸ hin⟩
            next => simp [eq_comm]
          rw [addNames, ih, hown]
          simp [isNamed, or_assoc]
      | list items =>
          rw [addNames, ih]
          · simp [isNamed]
          · intro _ _ _ _ h
            cases h
      | text content =>
          rw [addNames, ih]
          · simp [isNamed]
          · intro _ _ _ _ h
            cases h

theorem nodup_addNames {known : List String} (h : known.Nodup) (nodes : List Node) :
    (addNames known nodes).Nodup := by
  induction nodes generalizing known with
  | nil => exact h
  | cons first rest ih =>
      cases first with
      | element own attributes children content =>
          rw [addNames]
          split
          next => exact ih h
          next hc =>
            have hnew : own ∉ known := by simpa using hc
            have hsingle : [own].Nodup := List.nodup_cons.2 ⟨List.not_mem_nil, List.nodup_nil⟩
            refine ih (List.nodup_append.2 ⟨h, hsingle, fun key hkey other hother he => ?_⟩)
            rw [he, List.mem_singleton.1 hother] at hkey
            exact hnew hkey
      | _ => exact ih h

/-- The names of the attributes of an element are distinct. -/
def DistinctAttributes : Node → Prop
  | .element _ attributes _ _ => Fields.Distinct attributes
  | _ => True

theorem nodup_fieldNames (h : DistinctAttributes x) : (Backend.fieldNames x).Nodup := by
  cases x with
  | element own attributes children content => exact nodup_addNames h children
  | _ => exact List.nodup_nil

theorem mem_fieldNames : name ∈ Backend.fieldNames x ↔
    ∃ c, Backend.field x name = .ok (some c) := by
  cases x with
  | element own attributes children content =>
      have hnames : name ∈ Backend.fieldNames (element own attributes children content) ↔
          name ∈ Fields.names attributes ∨ ∃ c ∈ children, isNamed name c = true := mem_addNames
      rw [hnames, field_element]
      split
      next hnone =>
        have hchildren : ¬ ∃ c ∈ children, isNamed name c = true := by
          simpa [List.filter_eq_nil_iff] using hnone
        rw [or_iff_left hchildren]
        cases hf : List.lookup name attributes with
        | none => simp [Fields.lookup_eq_none.1 hf]
        | some s => simp [Fields.mem_names_of_lookup hf]
      next one hone =>
        have hmem : one ∈ children.filter (isNamed name) := hone ▸ List.mem_singleton_self one
        obtain ⟨hin, hnamed⟩ := List.mem_filter.1 hmem
        exact iff_of_true (.inr ⟨one, hin, hnamed⟩) ⟨one, rfl⟩
      next hnil _ =>
        obtain ⟨c, hc⟩ := List.exists_mem_of_ne_nil _ hnil
        obtain ⟨hin, hnamed⟩ := List.mem_filter.1 hc
        exact iff_of_true (.inr ⟨c, hin, hnamed⟩) ⟨_, rfl⟩
  | _ =>
      refine iff_of_false List.not_mem_nil ?_
      rintro ⟨c, hc⟩
      cases hc

def Shows (t m : Node) : Prop :=
  ∀ path v, path ≠ [] → OnlyNames path → Backend.get t path = .ok (some v) →
    Backend.get m path = .ok (some v)

theorem Plain.distinctAttributes (h : Plain x) : DistinctAttributes x := by
  obtain ⟨⟨own, children, content, rfl⟩, -⟩ := h
  exact Fields.distinct_nil

theorem standing_shows (hx : Plain x) (hm : Standing x m) : Shows x m := by
  intro path v hne hnames hget
  cases hm with
  | same => exact hget
  | named _ =>
      obtain ⟨⟨own, children, content, rfl⟩, -⟩ := hx
      rwa [get_named_element _ hne]
  | merged _ hmerge =>
      cases path with
      | nil => exact absurd rfl hne
      | cons key rest =>
          cases key with
          | index i => cases hnames (.index i) List.mem_cons_self
          | name key =>
              obtain ⟨c, hc, hrest⟩ := Backend.get_cons_eq_some.1 hget
              change Backend.field x key = _ at hc
              have hmoved := field_mergeFields hmerge (nodup_fieldNames hx.distinctAttributes)
                (mem_fieldNames.2 ⟨c, hc⟩) hc
              rw [named_of_isNamed (hx.2 key c hc)] at hmoved
              exact Backend.get_cons_eq_some.2 ⟨c, hmoved, hrest⟩

theorem kind_of_get {path : Path} {v : Node} (hne : path ≠ []) (hnames : OnlyNames path)
    (h : Backend.get m path = .ok (some v)) : Backend.kind m = .object := by
  cases path with
  | nil => exact absurd rfl hne
  | cons key rest =>
      cases key with
      | index i => cases hnames (.index i) List.mem_cons_self
      | name key =>
          obtain ⟨c, hc, -⟩ := Backend.get_cons_eq_some.1 h
          change Backend.field m key = _ at hc
          cases m with
          | element own attributes children content =>
              cases children with
              | nil =>
                  cases attributes with
                  | nil => cases hc
                  | cons _ _ => rfl
              | cons _ _ => rfl
          | _ => cases hc

end DataTree.Xml.Node
