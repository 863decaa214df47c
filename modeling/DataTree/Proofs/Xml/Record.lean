import DataTree.Proofs.Coding.Entry
import DataTree.Proofs.Xml.Coding
import DataTree.Proofs.Xml.StoredName

namespace DataTree

open Xml (isName)
open Xml.Node (fieldNodes named placed ReadsBack Unreadable)

namespace Entry

variable {naming : Naming} {entries : List Entry} {options : Xml.WriteOptions}
  {fields : List (String × Xml.Node)}

theorem named_of_node {entry : Entry} (hvalue : entry.type.Trimmed entry.value) {y : Xml.Node}
    (h : entry.node = .ok y) (name : String) :
    ∃ s, named name y = .element name [] [] s ∧ s ≠ "" ∧ Text.trim s = s := by
  have hwritten : writeLeaf entry.type entry.value = .ok y := mapError_eq_ok.1 h
  obtain ⟨s, rfl, hs, -⟩ := Xml.Node.writeLeaf_text hwritten hvalue.legible
  exact ⟨s, rfl, hs, Xml.Node.trim_of_writeLeaf hwritten hvalue⟩

theorem readsBack_named {entry : Entry} (hvalue : entry.type.Trimmed entry.value) {y : Xml.Node}
    (h : entry.node = .ok y) (hblank : options.IsBlank) (hkey : isIdentifier entry.key = true)
    (hjoins : naming.Joins entry.key) :
    ReadsBack options (named (naming.apply entry.key) y) := by
  obtain ⟨s, hs, -, htrim⟩ := named_of_node hvalue h (naming.apply entry.key)
  rw [hs]
  exact Xml.Node.readsBack_of_isDocument hblank
    (.element Xml.areNamed_nil htrim (List.forall_mem_nil _) (List.forall_mem_nil _))
    (Naming.isName_apply hkey hjoins)

theorem unreadable_named {entry : Entry} (hvalue : entry.type.Trimmed entry.value) {y : Xml.Node}
    (h : entry.node = .ok y) (hkey : isIdentifier entry.key = true)
    (hjoins : ¬ naming.Joins entry.key) :
    Unreadable options (named (naming.apply entry.key) y) := by
  obtain ⟨s, hs, hne, -⟩ := named_of_node hvalue h (naming.apply entry.key)
  rw [hs]
  exact Xml.Node.unreadable_of_isSpaced (Naming.isSpaced_apply hkey hjoins) hne

theorem forall₂_fieldNodes
    (h : Fields.Pointwise (fun entry y => entry.node = .ok y) (stored naming entries) fields) :
    List.Forall₂ (fun entry child => ∃ y, entry.node = .ok y ∧
      child = named (naming.apply entry.key) y) entries (fieldNodes fields) := by
  rw [Fields.Pointwise, stored, List.forall₂_map_left_iff] at h
  rw [fieldNodes, List.forall₂_map_right_iff]
  refine h.imp fun entry field hfield => ?_
  obtain ⟨hname, hnode⟩ := hfield
  exact ⟨field.2, hnode, congrArg (named · field.2) hname.symm⟩

section Reading

variable {X U : Type} {D : X → Type} {tree : Xml.Node}

theorem run_readAll_placed (own : (x : X) → Decoding Xml.Node U (D x)) (hne : entries ≠ [])
    (hd : Fields.Distinct (stored naming entries))
    (hvalues : ∀ entry ∈ entries, entry.type.Trimmed entry.value)
    (htree : insertEach node (stored naming entries) Backend.object = .ok tree)
    (place : Option String) (user : U) :
    (Decoding.run naming user (placed place tree) (do
      Decoding.keyed
      Member.readAll own (entries.map member))).1 =
      .ok (entries.map fun entry => ⟨entry.member, entry.value⟩) := by
  have hkind : Backend.kind (placed place tree) = .object := by
    obtain ⟨fields, rfl, hfields⟩ := Xml.Node.insertEach_fresh hd htree
    have hfields : fields ≠ [] := by
      rintro rfl
      exact hne (List.map_eq_nil_iff.1 (List.forall₂_nil_right_iff.1 hfields))
    rw [Xml.Node.placed_fieldNodes]
    exact Xml.Node.kind_fieldNodes _ hfields ""
  have hread : ∀ entry ∈ entries, Codable.readField (Codable.readPrim entry.type)
      (placed place tree) (naming.apply entry.key) = .ok entry.value := by
    intro entry hentry
    have hstored : (naming.apply entry.key, entry) ∈ stored naming entries :=
      List.mem_map_of_mem hentry
    obtain ⟨y, hy, hfield⟩ :=
      Codable.readField_placed hd htree place (Codable.readPrim entry.type) hstored
    rw [hfield]
    exact (Codable.readPrim_placed (mapError_eq_ok.1 hy) (some _)).2
      fun _ => (hvalues entry hentry).legible
  rw [run_readAll own hread hkind]

end Reading

section Text

variable (hkeys : ∀ entry ∈ entries, isIdentifier entry.key = true)
  (hd : Fields.Distinct (stored naming entries))
  (hvalues : ∀ entry ∈ entries, entry.type.Trimmed entry.value) (hblank : options.IsBlank)
  {root : String} (hroot : isName root = true) {tree : Xml.Node} {text : String}
  (htree : insertEach node (stored naming entries) Backend.object = .ok tree)
  (htext : tree.toText options root = .ok text)

include hkeys hd hvalues hblank hroot htree htext

theorem ofText_joined (hjoins : ∀ entry ∈ entries, naming.Joins entry.key) :
    Xml.Node.ofText text = .ok (placed (some root) tree) := by
  obtain ⟨fields, rfl, hfields⟩ := Xml.Node.insertEach_fresh hd htree
  cases htext
  have hreads : ∀ child ∈ fieldNodes fields, ReadsBack options child := by
    intro child hchild
    obtain ⟨entry, hentry, y, hy, rfl⟩ := exists_of_forall₂ (forall₂_fieldNodes hfields).flip hchild
    exact readsBack_named (hvalues entry hentry) hy hblank (hkeys entry hentry)
      (hjoins entry hentry)
  exact Xml.Node.ofText_elementText_ok hblank hroot Xml.areNamed_nil rfl hreads

theorem ofText_spaced (hjoins : ∃ entry ∈ entries, ¬ naming.Joins entry.key) :
    ∃ e, Xml.Node.ofText text = .error e := by
  obtain ⟨fields, rfl, hfields⟩ := Xml.Node.insertEach_fresh hd htree
  cases htext
  have hchildren := forall₂_fieldNodes hfields
  have hall : ∀ child ∈ fieldNodes fields, ReadsBack options child ∨ Unreadable options child := by
    intro child hchild
    obtain ⟨entry, hentry, y, hy, rfl⟩ := exists_of_forall₂ hchildren.flip hchild
    by_cases hname : naming.Joins entry.key
    · exact .inl (readsBack_named (hvalues entry hentry) hy hblank (hkeys entry hentry) hname)
    · exact .inr (unreadable_named (hvalues entry hentry) hy (hkeys entry hentry) hname)
  obtain ⟨entry, hentry, hname⟩ := hjoins
  obtain ⟨child, hchild, y, hy, rfl⟩ := exists_of_forall₂ hchildren hentry
  have hsome : ∃ child ∈ fieldNodes fields, Unreadable options child :=
    ⟨_, hchild, unreadable_named (hvalues entry hentry) hy (hkeys entry hentry) hname⟩
  exact Xml.Node.ofText_elementText_error hblank hroot Xml.areNamed_nil hall hsome 0

end Text

/-- A record of primitives with distinct names for its keys comes back from the text that it is
written as, unless the policy puts a space into one of the keys. The text of such a record is not
read at all. -/
theorem survives_text {X U : Type} {D : X → Type} (own : (x : X) → D x → Encoding Xml.Node U Unit)
    (own' : (x : X) → Decoding Xml.Node U (D x)) (hne : entries ≠ [])
    (hkeys : ∀ entry ∈ entries, isIdentifier entry.key = true)
    (hd : Fields.Distinct (stored naming entries))
    (hvalues : ∀ entry ∈ entries, entry.type.Trimmed entry.value) (hblank : options.IsBlank)
    {root : String} (hroot : isName root = true) {tree : Xml.Node} {text : String} (user user' : U)
    (htree : (Encoding.run naming user (do
      Encoding.keyed
      Member.writeAll own (entries.map member))).1 = .ok tree)
    (htext : tree.toText options root = .ok text) :
    ((∀ entry ∈ entries, naming.Joins entry.key) → ∃ node, Xml.Node.ofText text = .ok node ∧
      (Decoding.run naming user' node (do
        Decoding.keyed
        Member.readAll own' (entries.map member))).1 =
      .ok (entries.map fun entry => ⟨entry.member, entry.value⟩)) ∧
    ((∃ entry ∈ entries, ¬ naming.Joins entry.key) →
      ∃ e, Xml.Node.ofText text = .error e) := by
  rw [run_writeAll] at htree
  refine ⟨fun hjoins => ?_, ofText_spaced hkeys hd hvalues hblank hroot htree htext⟩
  exact ⟨_, ofText_joined hkeys hd hvalues hblank hroot htree htext hjoins,
    run_readAll_placed own' hne hd hvalues htree (some root) user'⟩

/-- Keys of one word and of two, and a text with a space and what has to be escaped. -/
theorem survives_text_kebab :
    let own : (y : Empty) → Empty → Encoding Xml.Node Unit Unit := fun y => y.elim
    let own' : (y : Empty) → Decoding Xml.Node Unit Empty := fun y => y.elim
    let first : Entry := ⟨"firstName", .string, "Ann & Bo"⟩
    let age : Entry := ⟨"age", .int .int64, ⟨-3, by decide⟩⟩
    ∃ tree text, (Encoding.run .kebab () (do
        Encoding.keyed
        Member.writeAll own ([first, age].map member))).1 = .ok tree ∧
      tree.toText .compact "record" = .ok text ∧
      ∃ node, Xml.Node.ofText text = .ok node ∧
        (Decoding.run .kebab () node (do
          Decoding.keyed
          Member.readAll own' ([first, age].map member))).1 =
        .ok ([first, age].map fun entry => ⟨entry.member, entry.value⟩) := by
  intro own own' first age
  have hkeys : ∀ entry ∈ [first, age], isIdentifier entry.key = true :=
    List.forall_mem_cons.2 ⟨by decide, List.forall_mem_singleton.2 (by decide)⟩
  have hfirst : Naming.kebab.apply "firstName" = "first-name" := by decide
  have hage : Naming.kebab.apply "age" = "age" := by decide
  have hstored : stored .kebab [first, age] = [("first-name", first), ("age", age)] := by
    show [(Naming.kebab.apply "firstName", _), (Naming.kebab.apply "age", _)] = _
    rw [hfirst, hage]
  have hd : Fields.Distinct (stored .kebab [first, age]) := by
    rw [hstored]
    simp [Fields.Distinct, Fields.names]
  have hvalues : ∀ entry ∈ [first, age], entry.type.Trimmed entry.value :=
    List.forall_mem_cons.2 ⟨⟨by decide, by decide⟩, List.forall_mem_singleton.2 trivial⟩
  have htree : (Encoding.run .kebab () (do
      Encoding.keyed
      Member.writeAll own ([first, age].map member))).1 = .ok (Xml.Node.element "" []
        [.element "first-name" [] [] "Ann & Bo", .element "age" [] [] "-3"] "") := by
    rw [run_writeAll, hstored]
    rfl
  exact ⟨_, _, htree, rfl, (survives_text own own' (List.cons_ne_nil _ _) hkeys hd hvalues
    Xml.WriteOptions.isBlank_compact (by decide : isName "record" = true) () () htree rfl).1
    fun _ _ => nofun⟩

/-- A key of two words is stored with a space, and the text is refused. -/
theorem refused_with_space :
    let own : (y : Empty) → Empty → Encoding Xml.Node Unit Unit := fun y => y.elim
    let first : Entry := ⟨"firstName", .string, "x"⟩
    (∀ entry ∈ [first], isIdentifier entry.key = true) ∧
      Fields.Distinct (stored .title [first]) ∧
      (∀ entry ∈ [first], entry.type.Trimmed entry.value) ∧
      ∃ tree, (Encoding.run .title () (do
          Encoding.keyed
          Member.writeAll own ([first].map member))).1 = .ok tree ∧
        tree.toText .compact "record" = .ok "<record><First Name>x</First Name></record>" ∧
        ∃ e, Xml.Node.ofText "<record><First Name>x</First Name></record>" = .error e := by
  intro own first
  have hkeys : ∀ entry ∈ [first], isIdentifier entry.key = true :=
    List.forall_mem_singleton.2 (by decide)
  have hname : Naming.title.apply "firstName" = "First Name" := by decide
  have hstored : stored .title [first] = [("First Name", first)] := by
    show [(Naming.title.apply "firstName", _)] = _
    rw [hname]
  have hd : Fields.Distinct (stored .title [first]) := List.pairwise_singleton _ _
  have hvalues : ∀ entry ∈ [first], entry.type.Trimmed entry.value :=
    List.forall_mem_singleton.2 ⟨by decide, by decide⟩
  have htree : insertEach node (stored .title [first]) Backend.object =
      .ok (Xml.Node.element "" [] [.element "First Name" [] [] "x"] "") := by
    rw [hstored]
    rfl
  have hspaced : ∃ entry ∈ [first], ¬ Naming.title.Joins entry.key :=
    ⟨_, List.mem_singleton_self _, fun hjoins => absurd (hjoins rfl) (by decide)⟩
  have htext : (Xml.Node.element "" [] [.element "First Name" [] [] "x"] "").toText .compact
      "record" = .ok "<record><First Name>x</First Name></record>" := rfl
  refine ⟨hkeys, hd, hvalues, _, ?_, htext, ?_⟩
  · rw [run_writeAll, htree]
  · exact ofText_spaced hkeys hd hvalues Xml.WriteOptions.isBlank_compact
      (by decide : isName "record" = true) htree htext hspaced

end Entry

end DataTree
