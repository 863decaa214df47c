import DataTree.Proofs.Text.Blank
import DataTree.Proofs.Xml.Tags
import DataTree.Xml.Writer

namespace DataTree.Xml

namespace Document

variable {opened : List Symbols} {d : Document} {name : String}
  {attributes : List (String × String)}

theorem scan_tag {x : Symbol} {tag : Symbols} (hx : x ≠ .char '!' ∧ x ≠ .char '?')
    (hend : ∀ y ∈ x :: tag, y ≠ .char '>')
    (hquote : (x :: tag).foldl Token.quoteAfter none = none) (rest : Symbols) :
    Token.scan (.char '<' :: (x :: tag ++ .char '>' :: rest)) =
      .tag (x :: tag) :: Token.scan rest := by
  obtain ⟨cut, hcut, hbefore, hafter⟩ := Token.cutTag_run hend hquote rest
  have htagged : (Token.tagged (x :: tag ++ .char '>' :: rest)).token = .tag (x :: tag) ∧
      (Token.tagged (x :: tag ++ .char '>' :: rest)).rest = rest := by
    unfold Token.tagged
    rw [hcut]
    exact ⟨congrArg Token.tag hbefore, hafter⟩
  have hmarkup : Token.markup (x :: tag ++ .char '>' :: rest) =
      Token.tagged (x :: tag ++ .char '>' :: rest) := by
    show Token.markup (x :: (tag ++ .char '>' :: rest)) = _
    rw [Token.markup, if_neg hx.1, if_neg hx.2]
    rfl
  rw [Token.scan, Token.next, if_pos rfl, hmarkup, htagged.1, htagged.2]

theorem ofChars_tagChars_cons (h : isName name = true) (attributes : List (String × String)) :
    ∃ x tag, Symbols.ofChars (tagChars name attributes) = x :: tag ∧ x ≠ .char '!' ∧
      x ≠ .char '?' ∧ x ≠ .char '/' := by
  have hne (d : Char) (hd : isNameChar d = false) := ne_of_isName h hd
  rw [ofChars_tagChars]
  obtain ⟨x, tag, hcons⟩ := List.exists_cons_of_ne_nil (ofText_ne_nil h)
  have hmem : x ∈ Symbols.ofText name := by
    rw [hcons]
    exact List.mem_cons_self
  rw [hcons]
  exact ⟨x, _, rfl, hne '!' rfl x hmem, hne '?' rfl x hmem, hne '/' rfl x hmem⟩

theorem getLast?_tagChars (h : isName name = true) (attributes : List (String × String)) :
    (Symbols.ofChars (tagChars name attributes)).getLast? ≠ some (.char '/') := by
  rcases List.eq_nil_or_concat' attributes with rfl | ⟨front, ⟨key, value⟩, rfl⟩
  · rw [ofChars_tagChars, List.flatMap_nil, Symbols.ofChars, List.map_nil, List.append_nil]
    intro hlast
    exact ne_of_isName h (d := '/') rfl _ (List.mem_of_getLast? hlast) rfl
  · have hquote : tagChars name (front ++ [(key, value)]) =
        tagChars name front ++ ' ' :: (key.toList ++ '=' :: '"' ::
          value.toList.flatMap Escape.attributeValue.written) ++ ['"'] := by
      simp [tagChars, attributeChars]
    rw [hquote, Symbols.ofChars_append]
    show (_ ++ [Symbol.char '"']).getLast? ≠ _
    rw [List.getLast?_concat]
    simp

theorem read_start (h : isName name = true) (hattributes : AreNamed attributes) (cs : List Char) :
    read opened d ('<' :: (tagChars name attributes ++ '>' :: cs)) =
      read (Symbols.ofText name :: opened) ⟨⟨name, attributes, [], ""⟩ :: d.opened, d.root⟩ cs := by
  have hsymbols : Symbols.ofChars ('<' :: (tagChars name attributes ++ '>' :: cs)) =
      .char '<' :: (Symbols.ofChars (tagChars name attributes) ++
        .char '>' :: Symbols.ofChars cs) := by
    simp [Symbols.ofChars]
  obtain ⟨x, tag, hcons, hmark, hask, hslash⟩ := ofChars_tagChars_cons h attributes
  have hend := ne_of_mem_tagChars h hattributes
  have hquote := quote_tagChars h hattributes
  have hlast := getLast?_tagChars h attributes
  have hname := tagName_tagChars h attributes
  have hopened := ofTag_tagChars h hattributes
  rw [hcons] at hend hquote hlast hname hopened
  rw [read, hsymbols, hcons, scan_tag ⟨hmark, hask⟩ hend hquote, readTokens, Event.ofTokens,
    if_neg (by simpa using hslash), if_neg hlast, hname, List.foldlM_cons, step, hopened]
  rfl

theorem read_empty (h : isName name = true) (hattributes : AreNamed attributes) (cs : List Char) :
    read opened d ('<' :: (tagChars name attributes ++ '/' :: '>' :: cs)) =
      d.attach (.element name attributes [] "") >>= fun d => read opened d cs := by
  have hsymbols : Symbols.ofChars ('<' :: (tagChars name attributes ++ '/' :: '>' :: cs)) =
      .char '<' :: (Symbols.ofChars (tagChars name attributes) ++ [.char '/'] ++
        .char '>' :: Symbols.ofChars cs) := by
    simp [Symbols.ofChars]
  obtain ⟨x, tag, hcons, hmark, hask, hslash⟩ := ofChars_tagChars_cons h attributes
  have hend : ∀ y ∈ Symbols.ofChars (tagChars name attributes) ++ [Symbol.char '/'],
      y ≠ .char '>' := by
    intro y hy
    rcases List.mem_append.1 hy with hy | hy
    · exact ne_of_mem_tagChars h hattributes y hy
    · obtain rfl := List.mem_singleton.1 hy
      decide
  have hquote : (Symbols.ofChars (tagChars name attributes) ++ [Symbol.char '/']).foldl
      Token.quoteAfter none = none := by
    rw [List.foldl_append, quote_tagChars h hattributes]
    rfl
  have hlast : (Symbols.ofChars (tagChars name attributes) ++ [Symbol.char '/']).getLast? =
      some (.char '/') := List.getLast?_concat
  have hdrop : (Symbols.ofChars (tagChars name attributes) ++ [Symbol.char '/']).dropLast =
      Symbols.ofChars (tagChars name attributes) := List.dropLast_concat
  have hopened := ofTag_tagChars h hattributes
  rw [hcons, List.cons_append] at hend hquote hlast hdrop
  rw [hcons] at hopened
  rw [read, hsymbols, hcons, List.cons_append, scan_tag ⟨hmark, hask⟩ hend hquote, readTokens,
    Event.ofTokens, if_neg (by simpa using hslash), if_pos hlast, hdrop, List.foldlM_cons, step,
    hopened]
  rfl

theorem endName_ofText (h : isName name = true) :
    Event.endName (Symbols.ofText name) = Symbols.ofText name := by
  have hblank : ∀ x ∈ (Symbols.ofText name).reverse.head?, x.isBlank = false := by
    intro x hx
    have hkey := isKey_of_isName h x (List.mem_reverse.1 (List.mem_of_mem_head? hx))
    exact Bool.not_eq_true' _ ▸ (Bool.and_eq_true_iff.1 hkey).2
  unfold Event.endName
  rw [List.dropWhile_eq_self_iff.2 (Text.head_rejected hblank)]
  split
  next => rfl
  next => exact List.reverse_reverse _

theorem read_stop (h : isName name = true) (e : Opened) (outer : List Opened) (root : Option Node)
    (cs : List Char) :
    read (Symbols.ofText name :: opened) ⟨e :: outer, root⟩
        ('<' :: '/' :: (name.toList ++ '>' :: cs)) =
      attach ⟨outer, root⟩ e.close >>= fun d => read opened d cs := by
  have hsymbols : Symbols.ofChars ('<' :: '/' :: (name.toList ++ '>' :: cs)) =
      .char '<' :: (.char '/' :: Symbols.ofText name ++ .char '>' :: Symbols.ofChars cs) := by
    simp [Symbols.ofChars, Symbols.ofText]
  have hend : ∀ y ∈ Symbol.char '/' :: Symbols.ofText name, y ≠ .char '>' :=
    List.forall_mem_cons.2 ⟨by decide, ne_of_isName h rfl⟩
  have hquote : (Symbol.char '/' :: Symbols.ofText name).foldl Token.quoteAfter none = none :=
    quote_name h
  rw [read, hsymbols, scan_tag ⟨by decide, by decide⟩ hend hquote, readTokens, Event.ofTokens,
    List.head?_cons, if_pos rfl]
  dsimp only
  rw [List.tail_cons, endName_ofText h, if_pos rfl, List.foldlM_cons, step]
  rfl

end Document

theorem isPlain_of_isBlank {c : Char} (h : Text.isBlank c = true) : isPlain c = true := by
  rw [isPlain, Token.isText, Bool.and_eq_true, bne_iff_ne, bne_iff_ne]
  constructor
  · rintro ⟨⟩
    cases h
  · rintro ⟨⟩
    cases h

namespace WriteOptions

def IsBlank (options : WriteOptions) : Prop :=
  options.pretty = true → ∀ c ∈ options.indent.toList, Text.isBlank c = true

theorem isBlank_compact : compact.IsBlank := fun h => nomatch h

theorem blank_line {options : WriteOptions} (h : options.IsBlank) (depth : Nat) :
    ∀ c ∈ (options.line depth).toList, Text.isBlank c = true := by
  intro c hc
  rw [line] at hc
  split at hc
  next hpretty =>
    rw [String.toList_append, List.mem_append, String.toList_join] at hc
    rcases hc with hc | hc
    · obtain rfl : c = '\n' := by simpa using hc
      rfl
    · obtain ⟨s, hs, hcs⟩ := List.mem_flatMap.1 hc
      rw [(List.mem_replicate.1 hs).2] at hcs
      exact h hpretty c hcs
  next => cases hc

end WriteOptions

namespace Node

variable {options : WriteOptions} {name content : String} {attributes : List (String × String)}
  {children : List Node}

theorem toList_attributeTexts (attributes : List (String × String)) :
    (attributeTexts attributes).toList = attributes.flatMap attributeChars := by
  induction attributes with
  | nil => rfl
  | cons field rest ih =>
      obtain ⟨key, value⟩ := field
      rw [attributeTexts] at ih ⊢
      rw [List.map_cons, String.join_cons, String.toList_append, ih, List.flatMap_cons]
      simp [attributeChars, Escape.toList_apply]

theorem toList_elementText_nil (options : WriteOptions) (depth : Nat) (name : String)
    (attributes : List (String × String)) :
    (elementText options depth name attributes [] "").toList =
      '<' :: (tagChars name attributes ++ ['/', '>']) := by
  simp [elementText, tagChars, toList_attributeTexts]

/-- The children as they are written, each behind its line. -/
def childChars (options : WriteOptions) (depth : Nat) (children : List Node) : List Char :=
  (writeItems options depth children).flatMap fun s => (options.line depth ++ s).toList

theorem toList_elementText (options : WriteOptions) (depth : Nat) (name : String)
    (attributes : List (String × String)) {children : List Node} {content : String}
    (h : children ≠ [] ∨ content ≠ "") :
    ∃ final, (final = "" ∨ final = options.line depth) ∧
      (elementText options depth name attributes (writeItems options (depth + 1) children)
          content).toList =
        '<' :: (tagChars name attributes ++ '>' ::
          (content.toList.flatMap Escape.text.written ++
            (childChars options (depth + 1) children ++ (final.toList ++
              '<' :: '/' :: (name.toList ++ ['>']))))) := by
  have hopen : ((writeItems options (depth + 1) children).isEmpty && content.isEmpty) = false := by
    rcases h with hchildren | hcontent
    · obtain ⟨child, rest, rfl⟩ := List.exists_cons_of_ne_nil hchildren
      rfl
    · simp [hcontent]
  refine ⟨if (writeItems options (depth + 1) children).isEmpty then "" else options.line depth,
    ?_, ?_⟩
  · split
    next => exact .inl rfl
    next => exact .inr rfl
  · simp [elementText, hopen, tagChars, toList_attributeTexts, Escape.toList_apply, childChars,
      String.toList_join, List.flatMap_map]

theorem withoutMark_elementText (options : WriteOptions) (depth : Nat) (name : String)
    (attributes : List (String × String)) (children : List String) (content : String) :
    (Symbols.ofText (elementText options depth name attributes children content)).withoutMark =
      Symbols.ofText (elementText options depth name attributes children content) := by
  have hfirst : ∃ cs, (elementText options depth name attributes children content).toList =
      '<' :: cs := by
    rw [elementText]
    split
    · exact ⟨name.toList ++ (attributeTexts attributes).toList ++ "/>".toList, by simp⟩
    · simp
  obtain ⟨cs, hcs⟩ := hfirst
  rw [Symbols.ofText, hcs, Symbols.withoutMark_ofChars (by decide)]

/-- What is written of a node is read back as the node, wherever it stands. -/
def ReadsBack (options : WriteOptions) (node : Node) : Prop :=
  ∀ depth opened d cs, Document.read opened d ((write options depth node).toList ++ cs) =
    d.attach node >>= fun d => Document.read opened d cs

theorem read_childChars (hblank : options.IsBlank) (depth : Nat)
    (hreads : ∀ child ∈ children, ReadsBack options child) :
    ∃ blanks, (∀ c ∈ blanks, Text.isBlank c = true) ∧ ∀ opened e outer root cs,
      Document.read opened ⟨e :: outer, root⟩ (childChars options depth children ++ cs) =
        Document.read opened
          ⟨{ e.addChars blanks with children := e.children ++ children } :: outer, root⟩ cs := by
  induction children with
  | nil =>
      refine ⟨[], fun _ hc => (List.not_mem_nil hc).elim, fun opened e outer root cs => ?_⟩
      rw [Opened.addChars_nil, List.append_nil]
      rfl
  | cons child rest ih =>
      obtain ⟨blanks, hblanks, hrest⟩ := ih fun other h => hreads other (List.mem_cons_of_mem _ h)
      have hline := WriteOptions.blank_line hblank depth
      have hplain : ∀ c ∈ (options.line depth).toList, isPlain c = true := fun c hc =>
        isPlain_of_isBlank (hline c hc)
      refine ⟨(options.line depth).toList ++ blanks,
        fun c hc => (List.mem_append.1 hc).elim (hline c) (hblanks c),
        fun opened e outer root cs => ?_⟩
      have hchars : childChars options depth (child :: rest) ++ cs =
          (options.line depth).toList ++ ((write options depth child).toList ++
            (childChars options depth rest ++ cs)) := by
        simp [childChars, writeItems]
      rw [hchars, Document.read_chars hplain, hreads child List.mem_cons_self]
      show Document.read opened ⟨_ :: outer, root⟩ (childChars options depth rest ++ cs) = _
      rw [hrest, Opened.addChars, Opened.addChars, Opened.addChars]
      simp [String.append_assoc]

theorem read_elementText (hblank : options.IsBlank) (hname : isName name = true)
    (hattributes : AreNamed attributes) (htrim : Text.trim content = content)
    (hreads : ∀ child ∈ children, ReadsBack options child) (depth : Nat) (opened : List Symbols)
    (d : Document) (cs : List Char) :
    Document.read opened d ((elementText options depth name attributes
        (writeItems options (depth + 1) children) content).toList ++ cs) =
      d.attach (.element name attributes children content) >>= fun d =>
        Document.read opened d cs := by
  by_cases hempty : children = [] ∧ content = ""
  · obtain ⟨rfl, rfl⟩ := hempty
    rw [writeItems, toList_elementText_nil, List.cons_append, List.append_assoc]
    exact Document.read_empty hname hattributes cs
  · rw [not_and_or] at hempty
    obtain ⟨final, hfinal, hchars⟩ :=
      toList_elementText options depth name attributes hempty
    obtain ⟨blanks, hblanks, hread⟩ := read_childChars hblank (depth + 1) hreads
    have hfinal : ∀ c ∈ final.toList, Text.isBlank c = true := by
      rcases hfinal with rfl | rfl
      · exact fun _ hc => (List.not_mem_nil hc).elim
      · exact WriteOptions.blank_line hblank depth
    have hplain : ∀ c ∈ final.toList, isPlain c = true := fun c hc =>
      isPlain_of_isBlank (hfinal c hc)
    have hclose : Text.trim ("" ++ String.ofList content.toList ++ String.ofList blanks ++
        String.ofList final.toList) = content := by
      rw [Text.trim] at htrim ⊢
      simp only [String.toList_append, String.toList_ofList, String.toList_empty, List.nil_append]
      rw [Text.trimChars_append hfinal, Text.trimChars_append hblanks, htrim]
    rw [hchars]
    simp only [List.cons_append, List.append_assoc, List.nil_append]
    rw [Document.read_start hname hattributes, Document.read_escaped, hread,
      Document.read_chars hplain, Document.read_stop hname]
    simp only [Opened.close, Opened.toNode, Opened.addChars, hclose, List.nil_append]

theorem ofText_elementText (options : WriteOptions) (depth : Nat) (name : String)
    (attributes : List (String × String)) (children : List String) (content : String) :
    ofText (elementText options depth name attributes children content) =
      Document.read [] Document.start
        (elementText options depth name attributes children content).toList >>=
          Document.finish := by
  rw [Node.ofText, ofSymbols, withoutMark_elementText, Document.ofEvents]
  rfl

theorem ofText_elementText_ok (hblank : options.IsBlank) (hname : isName name = true)
    (hattributes : AreNamed attributes) (htrim : Text.trim content = content)
    (hreads : ∀ child ∈ children, ReadsBack options child) :
    ofText (elementText options 0 name attributes (writeItems options 1 children) content) =
      .ok (.element name attributes children content) := by
  have hread := read_elementText hblank hname hattributes htrim hreads 0 [] Document.start []
  rw [List.append_nil] at hread
  rw [ofText_elementText, hread]
  show (Document.read [] ⟨[], some _⟩ [] >>= Document.finish) = _
  rw [Document.read_nil]
  rfl

/-- Whether a node stands in its parent under a name of its own. -/
def hasName : Node → Bool
  | .element name _ _ _ => isName name
  | _ => false

/-- Elements that mean the same written out: their names are names, and nothing is trimmed off
their texts. The name of the outermost one does not matter. -/
inductive IsDocument : Node → Prop
  | element {name content : String} {attributes : List (String × String)} {children : List Node}
      (hattributes : AreNamed attributes) (htrim : Text.trim content = content)
      (hnames : ∀ child ∈ children, child.hasName = true)
      (hchildren : ∀ child ∈ children, IsDocument child) :
      IsDocument (.element name attributes children content)

theorem readsBack_of_isDocument (hblank : options.IsBlank) {node : Node} (h : IsDocument node)
    (hname : node.hasName = true) : ReadsBack options node := by
  induction h with
  | @element name content attributes children hattributes htrim hnames hchildren ih =>
      have hwritten : writtenName name = name := by
        refine if_neg ?_
        rintro rfl
        cases hname
      intro depth opened d cs
      rw [write, hwritten]
      exact read_elementText hblank hname hattributes htrim
        (fun child hc => ih child hc (hnames child hc)) depth opened d cs

/-- A document is read back under the name that its root was written with. -/
theorem ofText_of_toText {name content : String} {attributes : List (String × String)}
    {children : List Node} (h : IsDocument (.element name attributes children content))
    {root : String} (hroot : isName root = true) (hblank : options.IsBlank) :
    ∃ text, toText options root (.element name attributes children content) = .ok text ∧
      ofText text = .ok (.element root attributes children content) := by
  obtain ⟨hattributes, htrim, hnames, hchildren⟩ := h
  have hreads : ∀ child ∈ children, ReadsBack options child := fun child hc =>
    readsBack_of_isDocument hblank (hchildren child hc) (hnames child hc)
  exact ⟨_, rfl, ofText_elementText_ok hblank hroot hattributes htrim hreads⟩

/-- Text around children, and everything that is escaped. -/
def mixed (root : String) : Node :=
  .element root [("a-1", "\"<&>'"), ("_b", "")]
    [.element "empty" [] [] "", .element "p.q" [] [.element "x" [("y", " ")] [] "1 > 0"] "&lt;"]
    "a < b\n \"& c"

theorem ofText_of_toText_mixed : IsDocument (mixed "") ∧ isName "R" = true ∧
    WriteOptions.IsBlank ⟨true, "\t"⟩ ∧ ∃ text, toText ⟨true, "\t"⟩ "R" (mixed "") = .ok text ∧
      ofText text = .ok (mixed "R") := by
  have hempty : AreNamed [] := ⟨by decide, by decide⟩
  have hy : AreNamed [("y", " ")] := ⟨by decide, by decide⟩
  have hroot : AreNamed [("a-1", "\"<&>'"), ("_b", "")] := ⟨by decide, by decide⟩
  have hx : IsDocument (.element "x" [("y", " ")] [] "1 > 0") :=
    .element hy (by decide) (List.forall_mem_nil _) (List.forall_mem_nil _)
  have hp : IsDocument (.element "p.q" [] [.element "x" [("y", " ")] [] "1 > 0"] "&lt;") :=
    .element hempty (by decide) (by decide) (List.forall_mem_singleton.2 hx)
  have hmixed : IsDocument (mixed "") :=
    .element hroot (by decide) (by decide) (List.forall_mem_cons.2
      ⟨.element hempty (by decide) (List.forall_mem_nil _) (List.forall_mem_nil _),
        List.forall_mem_singleton.2 hp⟩)
  have hblank : WriteOptions.IsBlank ⟨true, "\t"⟩ := fun _ => List.all_eq_true.1 rfl
  exact ⟨hmixed, by decide, hblank, ofText_of_toText hmixed (by decide) hblank⟩

end Node

end DataTree.Xml
