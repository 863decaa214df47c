import DataTree.Proofs.Fields
import DataTree.Proofs.Xml.Scanning

namespace DataTree.Xml

open Text (takeWhile_run dropWhile_run)

theorem Token.cutTag_run {tag : Symbols} (h : ∀ x ∈ tag, x ≠ .char '>') {quote : Option Char}
    (hquote : tag.foldl Token.quoteAfter quote = none) (rest : Symbols) :
    ∃ cut, Token.cutTag quote (tag ++ .char '>' :: rest) = .ok cut ∧ cut.before = tag ∧
      cut.after = rest := by
  induction tag generalizing quote with
  | nil =>
      obtain rfl : quote = none := hquote
      exact ⟨_, rfl, rfl, rfl⟩
  | cons x tag ih =>
      obtain ⟨cut, hcut, hbefore, hafter⟩ :=
        ih (fun y hy => h y (List.mem_cons_of_mem _ hy)) hquote
      have hx : ¬ (quote.isNone && x == .char '>') = true := by
        simp [h x List.mem_cons_self]
      refine ⟨cut.cons x, ?_, congrArg (x :: ·) hbefore, hafter⟩
      show Token.cutTag quote (x :: (tag ++ .char '>' :: rest)) = _
      rw [Token.cutTag, if_neg hx, hcut]
      rfl

namespace Attribute

theorem cutValue_quoted (total : Nat) {value : Symbols} (h : ∀ x ∈ value, x ≠ .char '\"')
    (rest : Symbols) :
    ∃ cut, cutValue total (.char '\"' :: (value ++ .char '\"' :: rest)) = .ok cut ∧
      cut.before = value ∧ cut.after = rest := by
  have hskip : Symbols.skipBlanks (.char '\"' :: (value ++ .char '\"' :: rest)) =
      .char '\"' :: (value ++ .char '\"' :: rest) := List.dropWhile_cons_of_neg (by decide)
  have hrun : ∀ x ∈ value, (x != .char '\"') = true := fun x hx => bne_iff_ne.2 (h x hx)
  have hdrop : (value ++ .char '\"' :: rest).dropWhile (· != .char '\"') = .char '\"' :: rest :=
    dropWhile_run hrun (by decide)
  have htake : (value ++ .char '\"' :: rest).takeWhile (· != .char '\"') = value :=
    takeWhile_run hrun (by decide)
  unfold cutValue
  split
  next hnil =>
    rw [hskip] at hnil
    cases hnil
  next quote behind hcons =>
    rw [hskip] at hcons
    cases hcons
    rw [if_pos (by decide)]
    split
    next hnil =>
      rw [hdrop] at hnil
      cases hnil
    next x after hcons =>
      rw [hdrop] at hcons
      cases hcons
      exact ⟨_, rfl, htake, rfl⟩

theorem scan_nil (total : Nat) (seen : List (Symbols × Nat)) : scan total seen [] = [] := by
  unfold scan
  rfl

theorem scan_given (total : Nat) {seen : List (Symbols × Nat)} {name value : Symbols}
    (hne : name ≠ []) (hname : ∀ y ∈ name, isKey y = true) (hseen : seen.lookup name = none)
    (hvalue : ∀ y ∈ value, y ≠ .char '\"') (rest : Symbols) :
    ∃ position, scan total seen (.char ' ' :: (name ++
        .char '=' :: .char '\"' :: (value ++ .char '\"' :: rest))) =
      .given name value :: scan total ((name, position) :: seen) rest := by
  obtain ⟨x, key, rfl⟩ := List.exists_cons_of_ne_nil hne
  have hblank (y : Symbol) (hy : isKey y = true) : y.isBlank = false := by
    rw [isKey, Bool.and_eq_true, Bool.not_eq_true'] at hy
    exact hy.2
  have hskip (text : Symbols) : Symbols.skipBlanks (.char ' ' :: (x :: key ++ text)) =
      x :: (key ++ text) := by
    rw [Symbols.skipBlanks, List.dropWhile_cons_of_pos (by decide), List.cons_append,
      List.dropWhile_cons_of_neg (by simp [hblank x (hname x List.mem_cons_self)])]
  have hrun : ∀ y ∈ key, isKey y = true := fun y hy => hname y (List.mem_cons_of_mem _ hy)
  have hdrop (text : Symbols) : (key ++ .char '=' :: text).dropWhile isKey = .char '=' :: text :=
    dropWhile_run hrun (by decide)
  have htake (text : Symbols) : (key ++ .char '=' :: text).takeWhile isKey = key :=
    takeWhile_run hrun (by decide)
  obtain ⟨cut, hcut, hbefore, hafter⟩ := cutValue_quoted total hvalue rest
  rw [scan]
  split
  next hnil =>
    rw [hskip] at hnil
    cases hnil
  next y behind hcons =>
    rw [hskip] at hcons
    cases hcons
    have hequals (text : Symbols) : Symbols.skipBlanks (.char '=' :: text) = .char '=' :: text :=
      List.dropWhile_cons_of_neg (by decide)
    dsimp only
    rw [htake]
    split
    next hnil =>
      rw [hdrop, hequals] at hnil
      cases hnil
    next y behind hcons =>
      rw [hdrop, hequals] at hcons
      cases hcons
      rw [if_neg (by simp), hseen]
      dsimp only
      split
      next fault hfault =>
        rw [hcut] at hfault
        cases hfault
      next other hother =>
        rw [hcut] at hother
        cases hother
        rw [hbefore, hafter]
        exact ⟨_, rfl⟩

end Attribute

def isNameStart (c : Char) : Bool := c.isAlpha || c == '_'

def isNameChar (c : Char) : Bool := c.isAlphanum || c == '_' || c == '-' || c == '.'

def isName (s : String) : Bool :=
  match s.toList with
  | [] => false
  | c :: cs => isNameStart c && cs.all isNameChar

theorem isName_cons {s : String} (h : isName s = true) :
    ∃ c cs, s.toList = c :: cs ∧ ∀ d ∈ c :: cs, isNameChar d = true := by
  rw [isName] at h
  split at h
  next => cases h
  next c cs hs =>
    rw [Bool.and_eq_true, List.all_eq_true] at h
    refine ⟨c, cs, hs, List.forall_mem_cons.2 ⟨?_, h.2⟩⟩
    rcases Bool.or_eq_true_iff.1 h.1 with halpha | hunder
    · simp [isNameChar, Char.isAlphanum, halpha]
    · simp [isNameChar, hunder]

theorem ne_of_isNameChar {c d : Char} (hc : isNameChar c = true) (hd : isNameChar d = false) :
    c ≠ d := by
  rintro rfl
  rw [hc] at hd
  cases hd

theorem ne_of_isName {s : String} (h : isName s = true) {d : Char} (hd : isNameChar d = false) :
    ∀ x ∈ Symbols.ofText s, x ≠ .char d := by
  intro x hx he
  obtain ⟨c, cs, hs, hall⟩ := isName_cons h
  obtain ⟨c', hc', rfl⟩ := List.mem_map.1 hx
  rw [hs] at hc'
  exact ne_of_isNameChar (hall c' hc') hd (Symbol.char.inj he)

def attributeChars : String × String → List Char
  | (name, value) => ' ' :: (name.toList ++ '=' :: '"' ::
      (value.toList.flatMap Escape.attributeValue.written ++ ['"']))

/-- What stands in a tag up to the slash of an element that is closed at once. -/
def tagChars (name : String) (attributes : List (String × String)) : List Char :=
  name.toList ++ attributes.flatMap attributeChars

theorem ne_of_mem_written (value : List Char) {d : Char} (hd : d = '>' ∨ d = '"') :
    ∀ x ∈ Symbols.ofChars (value.flatMap Escape.attributeValue.written), x ≠ .char d := by
  intro x hx he
  obtain ⟨d', hm, rfl⟩ := List.mem_map.1 hx
  obtain rfl := Symbol.char.inj he
  obtain ⟨c, -, hc⟩ := List.mem_flatMap.1 hm
  exact Escape.not_mem_written (.inr (hd.imp_right fun h => ⟨rfl, h⟩)) hc

theorem ofChars_attributeChars (name value : String) (rest : List Char) :
    Symbols.ofChars (attributeChars (name, value) ++ rest) =
      .char ' ' :: (Symbols.ofText name ++ .char '=' :: .char '"' ::
        (Symbols.ofChars (value.toList.flatMap Escape.attributeValue.written) ++ .char '"' ::
          Symbols.ofChars rest)) := by
  simp [attributeChars, Symbols.ofChars, Symbols.ofText]

theorem ofText_injective {s t : String} (h : Symbols.ofText s = Symbols.ofText t) : s = t := by
  have hchars := congrArg Symbols.decode h
  rw [Symbols.ofText, Symbols.ofText, Symbols.decode_ofChars, Symbols.decode_ofChars,
    String.ofList_toList, String.ofList_toList] at hchars
  exact Except.ok.inj hchars

def cutAttribute : String × String → Attribute
  | (name, value) => .given (Symbols.ofText name)
      (Symbols.ofChars (value.toList.flatMap Escape.attributeValue.written))

theorem isKey_of_isNameChar {c : Char} (h : isNameChar c = true) :
    Attribute.isKey (.char c) = true := by
  have hne (d : Char) (hd : isNameChar d = false) : c ≠ d := ne_of_isNameChar h hd
  simp [Attribute.isKey, Symbol.isBlank, hne '=' rfl, hne ' ' rfl, hne '\t' rfl, hne '\n' rfl,
    hne '\r' rfl]

theorem isKey_of_isName {s : String} (h : isName s = true) :
    ∀ x ∈ Symbols.ofText s, Attribute.isKey x = true := by
  intro x hx
  obtain ⟨c, cs, hs, hall⟩ := isName_cons h
  obtain ⟨d, hd, rfl⟩ := List.mem_map.1 hx
  exact isKey_of_isNameChar (hall d (hs ▸ hd))

theorem ofText_ne_nil {s : String} (h : isName s = true) : Symbols.ofText s ≠ [] := by
  obtain ⟨c, cs, hcons, -⟩ := isName_cons h
  rw [Symbols.ofText, hcons]
  exact List.cons_ne_nil _ _

theorem scan_attributes (total : Nat) {attributes : List (String × String)}
    (hname : ∀ field ∈ attributes, isName field.1 = true) (hd : Fields.Distinct attributes)
    {seen : List (Symbols × Nat)}
    (hseen : ∀ field ∈ attributes, seen.lookup (Symbols.ofText field.1) = none) :
    Attribute.scan total seen (Symbols.ofChars (attributes.flatMap attributeChars)) =
      attributes.map cutAttribute := by
  induction attributes generalizing seen with
  | nil => exact Attribute.scan_nil total seen
  | cons field rest ih =>
      obtain ⟨name, value⟩ := field
      obtain ⟨hfresh, hrest⟩ := Fields.distinct_cons.1 hd
      have hn : isName name = true := hname _ List.mem_cons_self
      obtain ⟨position, hscan⟩ := Attribute.scan_given total (ofText_ne_nil hn) (isKey_of_isName hn)
        (hseen _ List.mem_cons_self) (ne_of_mem_written value.toList (.inr rfl))
        (Symbols.ofChars (rest.flatMap attributeChars))
      have hseen' : ∀ other ∈ rest,
          ((Symbols.ofText name, position) :: seen).lookup (Symbols.ofText other.1) = none := by
        intro other hother
        have hne : Symbols.ofText other.1 ≠ Symbols.ofText name := by
          intro he
          apply hfresh
          exact List.mem_map.2 ⟨other, hother, ofText_injective he⟩
        rw [List.lookup_cons, beq_false_of_ne hne]
        exact hseen other (List.mem_cons_of_mem _ hother)
      rw [List.flatMap_cons, ofChars_attributeChars, hscan, List.map_cons,
        ih (fun other h => hname other (List.mem_cons_of_mem _ h)) hrest hseen']
      rfl

theorem no_colon {s : String} (h : isName s = true) :
    (Symbols.ofText s).takeWhile (· != .char ':') = Symbols.ofText s ∧
      (Symbols.ofText s).dropWhile (· != .char ':') = [] := by
  have hall : ∀ x ∈ Symbols.ofText s, (x != .char ':') = true := fun x hx =>
    bne_iff_ne.2 (ne_of_isName h rfl x hx)
  exact ⟨List.takeWhile_eq_self_iff.2 hall, List.dropWhile_eq_nil_iff.2 hall⟩

theorem localName_ofText {s : String} (h : isName s = true) :
    Attribute.localName (Symbols.ofText s) = Symbols.ofText s := by
  rw [Attribute.localName, (no_colon h).2]

theorem isDeclaration_ofText {s : String} (h : isName s = true) (hs : s ≠ "xmlns") :
    Attribute.isDeclaration (Symbols.ofText s) = false := by
  rw [Attribute.isDeclaration, (no_colon h).1]
  exact beq_false_of_ne fun he => hs (ofText_injective he)

theorem valueText_written (s : String) :
    Attribute.valueText (Symbols.ofChars (s.toList.flatMap Escape.attributeValue.written)) =
      .ok s := by
  rw [Attribute.valueText, Symbols.chars_ofChars]
  show Except.bind ((Reference.expandAll _).mapError _) _ = _
  rw [Reference.expandAll_written]
  exact congrArg Except.ok String.ofList_toList

theorem collect_attributes {attributes known : List (String × String)}
    (hname : ∀ field ∈ attributes, isName field.1 = true ∧ field.1 ≠ "xmlns")
    (hd : Fields.Distinct attributes)
    (hfresh : ∀ name ∈ Fields.names attributes, name ∉ Fields.names known) :
    Attribute.collect (attributes.map cutAttribute) known = .ok (known ++ attributes) := by
  induction attributes generalizing known with
  | nil => rw [List.map_nil, Attribute.collect, List.append_nil]
  | cons field rest ih =>
      obtain ⟨name, value⟩ := field
      obtain ⟨hother, hrest⟩ := Fields.distinct_cons.1 hd
      obtain ⟨hn, hx⟩ := hname _ List.mem_cons_self
      have hput : Fields.put name value known = known ++ [(name, value)] :=
        Fields.put_of_notMem (hfresh name List.mem_cons_self) value
      have hfresh' : ∀ other ∈ Fields.names rest,
          other ∉ Fields.names (known ++ [(name, value)]) := by
        intro other ho hm
        rw [Fields.names_append, List.mem_append] at hm
        rcases hm with hm | hm
        · exact hfresh other (List.mem_cons_of_mem _ ho) hm
        · obtain rfl := List.mem_singleton.1 hm
          exact hother ho
      have hlocal : (Attribute.localName (Symbols.ofText name)).decode = .ok name := by
        rw [localName_ofText hn, Symbols.ofText, Symbols.decode_ofChars, String.ofList_toList]
      rw [List.map_cons, cutAttribute, Attribute.collect, isDeclaration_ofText hn hx,
        if_neg Bool.false_ne_true, hlocal, valueText_written]
      show Attribute.collect _ (Fields.put name value known) = _
      rw [hput, ih (fun other h => hname other (List.mem_cons_of_mem _ h)) hrest hfresh',
        List.append_assoc]
      rfl

/-- Attributes that a tag gives back. -/
structure AreNamed (attributes : List (String × String)) : Prop where
  distinct : Fields.Distinct attributes
  named : ∀ field ∈ attributes, isName field.1 = true ∧ field.1 ≠ "xmlns"

theorem areNamed_nil : AreNamed [] := ⟨by decide, List.forall_mem_nil _⟩

theorem quote_outside {text : Symbols} (h : ∀ x ∈ text, x.isQuote = false) :
    text.foldl Token.quoteAfter none = none := by
  induction text with
  | nil => rfl
  | cons x xs ih =>
      have hx : Token.quoteAfter none x = none := if_neg (by simp [h x List.mem_cons_self])
      rw [List.foldl_cons, hx]
      exact ih fun y hy => h y (List.mem_cons_of_mem _ hy)

theorem quote_inside {q : Char} {value : Symbols} (h : ∀ x ∈ value, x ≠ .char q) :
    value.foldl Token.quoteAfter (some q) = some q := by
  induction value with
  | nil => rfl
  | cons x xs ih =>
      have hx : Token.quoteAfter (some q) x = some q := if_neg (h x List.mem_cons_self)
      rw [List.foldl_cons, hx]
      exact ih fun y hy => h y (List.mem_cons_of_mem _ hy)

theorem quote_name {s : String} (h : isName s = true) :
    (Symbols.ofText s).foldl Token.quoteAfter none = none := by
  apply quote_outside
  intro x hx
  simp [Symbol.isQuote, ne_of_isName h (d := '\'') rfl x hx, ne_of_isName h (d := '"') rfl x hx]

theorem quote_attributes {attributes : List (String × String)}
    (hname : ∀ field ∈ attributes, isName field.1 = true) :
    (Symbols.ofChars (attributes.flatMap attributeChars)).foldl Token.quoteAfter none = none := by
  induction attributes with
  | nil => rfl
  | cons field rest ih =>
      obtain ⟨name, value⟩ := field
      have hvalue : ∀ x ∈ Symbols.ofChars (value.toList.flatMap Escape.attributeValue.written),
          x ≠ .char '"' := ne_of_mem_written _ (.inr rfl)
      rw [List.flatMap_cons, ofChars_attributeChars, List.foldl_cons]
      show List.foldl Token.quoteAfter none _ = _
      rw [List.foldl_append, quote_name (hname _ List.mem_cons_self), List.foldl_cons,
        List.foldl_cons]
      show List.foldl Token.quoteAfter (some '"') _ = _
      rw [List.foldl_append, quote_inside hvalue, List.foldl_cons]
      exact ih fun other h => hname other (List.mem_cons_of_mem _ h)

theorem ofChars_tagChars (name : String) (attributes : List (String × String)) :
    Symbols.ofChars (tagChars name attributes) =
      Symbols.ofText name ++ Symbols.ofChars (attributes.flatMap attributeChars) := by
  rw [tagChars, Symbols.ofChars_append, Symbols.ofText]

theorem quote_tagChars {name : String} {attributes : List (String × String)}
    (h : isName name = true) (hattributes : AreNamed attributes) :
    (Symbols.ofChars (tagChars name attributes)).foldl Token.quoteAfter none = none := by
  rw [ofChars_tagChars, List.foldl_append, quote_name h,
    quote_attributes fun field hf => (hattributes.named field hf).1]

theorem ne_of_mem_tagChars {name : String} {attributes : List (String × String)}
    (h : isName name = true) (hattributes : AreNamed attributes) :
    ∀ x ∈ Symbols.ofChars (tagChars name attributes), x ≠ .char '>' := by
  intro x hx
  rw [ofChars_tagChars, List.mem_append] at hx
  rcases hx with hx | hx
  · exact ne_of_isName h rfl x hx
  · obtain ⟨c, hc, rfl⟩ := List.mem_map.1 hx
    obtain ⟨⟨key, value⟩, hfield, hc⟩ := List.mem_flatMap.1 hc
    have hsymbol : Symbol.char c ∈ Symbols.ofChars (attributeChars (key, value) ++ []) := by
      rw [List.append_nil]
      exact List.mem_map_of_mem hc
    rw [ofChars_attributeChars] at hsymbol
    simp only [List.mem_cons, List.mem_append] at hsymbol
    rcases hsymbol with he | hk | he | he | hv | he | he
    · rw [he]
      decide
    · exact ne_of_isName (hattributes.named _ hfield).1 rfl _ hk
    · rw [he]
      decide
    · rw [he]
      decide
    · exact ne_of_mem_written _ (.inl rfl) _ hv
    · rw [he]
      decide
    · cases he

theorem tagName_tagChars {name : String} (h : isName name = true)
    (attributes : List (String × String)) :
    Event.tagName (Symbols.ofChars (tagChars name attributes)) = Symbols.ofText name := by
  have hrun : ∀ x ∈ Symbols.ofText name, (!x.isBlank) = true := fun x hx =>
    (Bool.and_eq_true_iff.1 (isKey_of_isName h x hx)).2
  rw [ofChars_tagChars, Event.tagName]
  cases attributes with
  | nil =>
      rw [List.flatMap_nil, List.takeWhile_append_of_pos hrun]
      exact List.append_nil _
  | cons field rest =>
      rw [List.flatMap_cons, ofChars_attributeChars]
      exact takeWhile_run hrun rfl

theorem ofTag_tagChars {name : String} {attributes : List (String × String)}
    (h : isName name = true) (hattributes : AreNamed attributes) :
    Opened.ofTag (Symbols.ofChars (tagChars name attributes)) =
      .ok ⟨name, attributes, [], ""⟩ := by
  have hlocal : (Attribute.localName (Symbols.ofText name)).decode = .ok name := by
    rw [localName_ofText h, Symbols.ofText, Symbols.decode_ofChars, String.ofList_toList]
  have hrest : (Symbols.ofChars (tagChars name attributes)).drop (Symbols.ofText name).length =
      Symbols.ofChars (attributes.flatMap attributeChars) := by
    rw [ofChars_tagChars, List.drop_left]
  have hnames : ∀ field ∈ attributes, isName field.1 = true := fun field hf =>
    (hattributes.named field hf).1
  rw [Opened.ofTag, tagName_tagChars h, hlocal, hrest,
    scan_attributes _ hnames hattributes.distinct fun _ _ => rfl,
    collect_attributes hattributes.named hattributes.distinct fun _ _ => List.not_mem_nil]
  rfl

end DataTree.Xml
