import DataTree.Proofs.Xml.Scanning

namespace DataTree.Xml.Escape

variable {context : Escape}

theorem entity_of_flatMap {cs before rest : List Char}
    (h : cs.flatMap context.written = before ++ '&' :: rest) :
    ∃ c entity, context.replacement? c = some entity ∧ entity <+: '&' :: rest := by
  induction cs generalizing before with
  | nil => cases before <;> cases h
  | cons c cs ih =>
      rw [List.flatMap_cons, List.append_eq_append_iff] at h
      rcases h with ⟨front, -, hrest⟩ | ⟨back, hwritten, hrest⟩
      · exact ih hrest
      · cases back with
        | nil =>
            have hnext : cs.flatMap context.written = [] ++ '&' :: rest := hrest.symm
            exact ih hnext
        | cons d back =>
            obtain ⟨rfl, hback⟩ := List.cons.inj hrest
            obtain ⟨rfl, hentity⟩ := entity_of_written hwritten
            refine ⟨c, _, hentity, ?_⟩
            rw [hwritten, hback]
            exact List.prefix_append _ _

/-- Escaping writes the text character by character, though it copies runs of octets, all of which
it cuts out between characters. What it writes cannot end a text or an attribute value, and is read
as the text again. -/
theorem escapes_losslessly (context : Escape) (s : String) :
    let escaped := (context.apply s).toList
    escaped = s.toList.flatMap context.written ∧
    ('<' ∉ escaped ∧ '>' ∉ escaped ∧ (context = .attributeValue → '\"' ∉ escaped)) ∧
    (∀ before rest, escaped = before ++ '&' :: rest →
      ∃ c entity, context.replacement? c = some entity ∧ entity <+: '&' :: rest) ∧
    (Reference.expandAll escaped = .ok s.toList ∧
      (context = .text → ∀ opened e outer root, Document.read opened ⟨e :: outer, root⟩ escaped =
        .ok ⟨e.addChars s.toList :: outer, root⟩)) ∧
    ∀ fragment ∈ context.fragments s, fragment.OnBoundaries s := by
  dsimp only
  rw [toList_apply]
  have hfree {d : Char} (hd : d = '<' ∨ d = '>' ∨ context = .attributeValue ∧ d = '\"') :
      d ∉ s.toList.flatMap context.written := by
    intro hmem
    obtain ⟨c, -, hc⟩ := List.mem_flatMap.1 hmem
    exact not_mem_written hd hc
  refine ⟨rfl, ⟨hfree (.inl rfl), hfree (.inr (.inl rfl)), fun h => hfree (.inr (.inr ⟨h, rfl⟩))⟩,
    fun before rest => entity_of_flatMap, ⟨Reference.expandAll_written context _, ?_⟩,
    onBoundaries_of_mem_fragments s⟩
  rintro rfl opened e outer root
  have hread : Document.read opened ⟨e :: outer, root⟩
      (s.toList.flatMap Escape.text.written ++ []) =
        Document.read opened ⟨e.addChars s.toList :: outer, root⟩ [] := Document.read_escaped _ _
  rwa [List.append_nil, Document.read_nil] at hread

end DataTree.Xml.Escape
