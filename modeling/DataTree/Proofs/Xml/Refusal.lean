import DataTree.Proofs.Xml.RoundTrip

namespace DataTree.Xml

theorem Attribute.scan_bare (total : Nat) (seen : List (Symbols × Nat)) {text : Symbols}
    (hequals : ∀ x ∈ text, x ≠ .char '=') (hkey : ∃ x ∈ text, x.isBlank = false) :
    ∃ position, scan total seen text = [.broken (.expectedEquals position)] := by
  unfold scan
  split
  next hnil =>
    obtain ⟨x, hx, hblank⟩ := hkey
    rw [List.dropWhile_eq_nil_iff.1 hnil x hx] at hblank
    cases hblank
  next x rest hcons =>
    have hrest : ∀ y ∈ rest, y ∈ text := fun y hy =>
      (List.dropWhile_sublist _).subset (hcons ▸ List.mem_cons_of_mem x hy)
    dsimp only
    split
    next => exact ⟨_, rfl⟩
    next y behind hcons =>
      have hy : y ∈ rest := (List.dropWhile_sublist _).subset
        ((List.dropWhile_sublist _).subset (hcons ▸ List.mem_cons_self))
      rw [if_pos (hequals y (hrest y hy))]
      exact ⟨_, rfl⟩

/-- Words with spaces between them, of which the first is a name. -/
def IsSpaced (s : String) : Prop :=
  ∃ first back, s.toList = first.toList ++ ' ' :: back ∧ isName first = true ∧
    (∀ c ∈ back, isNameChar c = true ∨ c = ' ') ∧ ∃ c ∈ back, isNameChar c = true

namespace IsSpaced

variable {name : String} (h : IsSpaced name)

include h

theorem ne_of_mem {d : Char} (hname : isNameChar d = false) (hspace : d ≠ ' ') :
    ∀ x ∈ Symbols.ofText name, x ≠ .char d := by
  obtain ⟨first, back, hchars, hfirst, hback, -⟩ := h
  have hbehind : ∀ x ∈ Symbols.ofChars (' ' :: back), x ≠ .char d := by
    intro x hx he
    obtain ⟨c, hc, rfl⟩ := List.mem_map.1 hx
    obtain rfl := Symbol.char.inj he
    rcases List.mem_cons.1 hc with hc | hc
    · exact hspace hc
    · exact (hback c hc).elim (fun hn => ne_of_isNameChar hn hname rfl) hspace
  intro x hx
  rw [Symbols.ofText, hchars, Symbols.ofChars_append] at hx
  exact (List.mem_append.1 hx).elim (ne_of_isName hfirst hname x) (hbehind x)

theorem ofTag : ∃ position, Opened.ofTag (Symbols.ofText name) =
    .error (.parse (.badAttribute (.expectedEquals position))) := by
  have hequals := ne_of_mem h (d := '=') rfl (by decide)
  obtain ⟨first, back, hchars, hfirst, -, c, hc, hword⟩ := h
  have hsymbols : Symbols.ofText name =
      Symbols.ofText first ++ .char ' ' :: Symbols.ofChars back := by
    rw [Symbols.ofText, hchars, Symbols.ofChars_append]
    rfl
  have htag : Event.tagName (Symbols.ofText name) = Symbols.ofText first := by
    rw [hsymbols]
    exact Text.takeWhile_run (fun x hx => (Bool.and_eq_true_iff.1 (isKey_of_isName hfirst x hx)).2)
      rfl
  have hlocal : (Attribute.localName (Symbols.ofText first)).decode = .ok first := by
    rw [localName_ofText hfirst, Symbols.ofText, Symbols.decode_ofChars, String.ofList_toList]
  have hdrop : (Symbols.ofText name).drop (Symbols.ofText first).length =
      .char ' ' :: Symbols.ofChars back := by
    rw [hsymbols, List.drop_left]
  have hkey : ∃ x ∈ Symbol.char ' ' :: Symbols.ofChars back, x.isBlank = false :=
    ⟨.char c, List.mem_cons_of_mem _ (List.mem_map_of_mem hc),
      Bool.not_eq_true' _ ▸ (Bool.and_eq_true_iff.1 (isKey_of_isNameChar hword)).2⟩
  obtain ⟨position, hscan⟩ := Attribute.scan_bare (Symbols.ofText name).width []
    (fun x hx => hequals x (List.mem_of_mem_drop (hdrop ▸ hx))) hkey
  refine ⟨position, ?_⟩
  rw [Opened.ofTag, htag, hlocal, hdrop, hscan]
  rfl

theorem read_start (opened : List Symbols) (d : Document) (cs : List Char) : ∃ position,
    Document.read opened d ('<' :: (name.toList ++ '>' :: cs)) =
      .error (.parse (.badAttribute (.expectedEquals position))) := by
  obtain ⟨position, htag⟩ := ofTag h
  have hend := ne_of_mem h (d := '>') rfl (by decide)
  have hmark := ne_of_mem h (d := '!') rfl (by decide)
  have hask := ne_of_mem h (d := '?') rfl (by decide)
  have hslash := ne_of_mem h (d := '/') rfl (by decide)
  have hlast : (Symbols.ofText name).getLast? ≠ some (.char '/') := fun hlast =>
    hslash _ (List.mem_of_getLast? hlast) rfl
  have hquote : (Symbols.ofText name).foldl Token.quoteAfter none = none := by
    refine quote_outside fun x hx => ?_
    simp [Symbol.isQuote, ne_of_mem h (d := '\'') rfl (by decide) x hx,
      ne_of_mem h (d := '"') rfl (by decide) x hx]
  have hsymbols : Symbols.ofChars ('<' :: (name.toList ++ '>' :: cs)) =
      .char '<' :: (Symbols.ofText name ++ .char '>' :: Symbols.ofChars cs) := by
    simp [Symbols.ofChars, Symbols.ofText]
  have hne : Symbols.ofText name ≠ [] := by
    obtain ⟨first, back, hchars, -⟩ := h
    simp [Symbols.ofText, Symbols.ofChars, hchars]
  obtain ⟨x, tag, hcons⟩ := List.exists_cons_of_ne_nil hne
  have hx : x ∈ Symbols.ofText name := hcons ▸ List.mem_cons_self
  have hstart : x ≠ .char '!' ∧ x ≠ .char '?' := ⟨hmark x hx, hask x hx⟩
  have hopen : (x :: tag).head? ≠ some (.char '/') := fun he => hslash x hx (Option.some.inj he)
  rw [hcons] at hend hquote hlast htag
  refine ⟨position, ?_⟩
  rw [Document.read, hsymbols, hcons, Document.scan_tag hstart hend hquote, Document.readTokens,
    Event.ofTokens, if_neg hopen, if_neg hlast, List.foldlM_cons, Document.step, htag]
  rfl

end IsSpaced

namespace Node

variable {options : WriteOptions} {children : List Node}

/-- What is written of a node is refused, wherever it stands. -/
def Unreadable (options : WriteOptions) (node : Node) : Prop :=
  ∀ depth opened d cs, ∃ e,
    Document.read opened d ((write options depth node).toList ++ cs) = .error e

theorem unreadable_of_isSpaced {name content : String} (h : IsSpaced name)
    (hcontent : content ≠ "") : Unreadable options (.element name [] [] content) := by
  have hwritten : writtenName name = name := by
    refine if_neg ?_
    rintro rfl
    obtain ⟨first, back, hchars, -⟩ := h
    simp at hchars
  intro depth opened d cs
  obtain ⟨final, -, hchars⟩ := toList_elementText options depth name [] (.inr hcontent)
  rw [write, hwritten, hchars, tagChars, List.flatMap_nil, List.append_nil, List.cons_append,
    List.append_assoc]
  obtain ⟨position, hread⟩ := h.read_start opened d _
  exact ⟨_, hread⟩

theorem read_childChars_error (hblank : options.IsBlank) (depth : Nat)
    (hall : ∀ child ∈ children, ReadsBack options child ∨ Unreadable options child)
    (hsome : ∃ child ∈ children, Unreadable options child) (opened : List Symbols) (e : Opened)
    (outer : List Opened) (root : Option Node) (cs : List Char) :
    ∃ err, Document.read opened ⟨e :: outer, root⟩ (childChars options depth children ++ cs) =
      .error err := by
  induction children generalizing e with
  | nil =>
      obtain ⟨child, hchild, -⟩ := hsome
      cases hchild
  | cons child rest ih =>
      obtain ⟨hfirst, hrest⟩ := List.forall_mem_cons.1 hall
      have hplain : ∀ c ∈ (options.line depth).toList, isPlain c = true := fun c hc =>
        isPlain_of_isBlank (WriteOptions.blank_line hblank depth c hc)
      have hchars : childChars options depth (child :: rest) ++ cs =
          (options.line depth).toList ++ ((write options depth child).toList ++
            (childChars options depth rest ++ cs)) := by
        simp [childChars, writeItems]
      rw [hchars, Document.read_chars hplain]
      obtain ⟨other, hother, hbroken⟩ := hsome
      rcases List.mem_cons.1 hother with rfl | hother
      · exact hbroken depth opened _ _
      · rcases hfirst with hreads | hrefused
        · rw [hreads]
          exact ih hrest ⟨other, hother, hbroken⟩ _
        · exact hrefused depth opened _ _

theorem ofText_elementText_error (hblank : options.IsBlank) {name content : String}
    (hname : isName name = true) {attributes : List (String × String)}
    (hattributes : AreNamed attributes)
    (hall : ∀ child ∈ children, ReadsBack options child ∨ Unreadable options child)
    (hsome : ∃ child ∈ children, Unreadable options child) (depth : Nat) :
    ∃ e, ofText (elementText options depth name attributes
      (writeItems options (depth + 1) children) content) = .error e := by
  have hne : children ≠ [] := by
    obtain ⟨child, hchild, -⟩ := hsome
    exact List.ne_nil_of_mem hchild
  obtain ⟨final, -, hchars⟩ := toList_elementText options depth name attributes (.inl hne)
  obtain ⟨e, hread⟩ := read_childChars_error hblank (depth + 1) hall hsome
    [Symbols.ofText name] (Opened.addChars ⟨name, attributes, [], ""⟩ content.toList) [] none
    (final.toList ++ '<' :: '/' :: (name.toList ++ ['>']))
  refine ⟨e, ?_⟩
  rw [ofText_elementText, hchars, Document.read_start hname hattributes]
  show (Document.read _ ⟨⟨name, attributes, [], ""⟩ :: [], none⟩ _ >>= _) = _
  rw [Document.read_escaped, hread]
  rfl

end Node

end DataTree.Xml
