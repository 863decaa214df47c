import DataTree.Proofs.Outcome
import DataTree.Proofs.Xml.Escaping
import DataTree.Xml.Reader

namespace DataTree.Xml

open Text (takeWhile_run dropWhile_run)

theorem Symbols.chars_ofChars (cs : List Char) : (Symbols.ofChars cs).chars = .ok cs := by
  have h : (Symbols.ofChars cs).mapM Symbol.char? = some cs := by
    induction cs with
    | nil => rfl
    | cons c cs ih =>
        show ((Symbol.char c :: Symbols.ofChars cs).mapM Symbol.char?) = _
        rw [List.mapM_cons, ih]
        rfl
  rw [Symbols.chars, h]

@[simp] theorem Symbols.decode_ofChars (cs : List Char) :
    (Symbols.ofChars cs).decode = .ok (String.ofList cs) := by
  rw [Symbols.decode, Symbols.chars_ofChars]
  rfl

theorem Symbols.ofChars_append (cs ds : List Char) :
    Symbols.ofChars (cs ++ ds) = Symbols.ofChars cs ++ Symbols.ofChars ds := List.map_append

theorem Symbols.takeWhile_ofChars (p : Symbol → Bool) (cs : List Char) :
    (Symbols.ofChars cs).takeWhile p = Symbols.ofChars (cs.takeWhile fun c => p (.char c)) :=
  List.takeWhile_map ..

theorem Symbols.dropWhile_ofChars (p : Symbol → Bool) (cs : List Char) :
    (Symbols.ofChars cs).dropWhile p = Symbols.ofChars (cs.dropWhile fun c => p (.char c)) :=
  List.dropWhile_map ..

theorem Symbols.withoutMark_ofChars {c : Char} (h : c ≠ '\ufeff') (cs : List Char) :
    (Symbols.ofChars (c :: cs)).withoutMark = Symbols.ofChars (c :: cs) :=
  if_neg (c := Symbol.char c = .char '\ufeff') fun he => h (Symbol.char.inj he)

def isPlain (c : Char) : Bool := Token.isText (.char c)

namespace Opened

def addChars (e : Opened) (cs : List Char) : Opened := { e with text := e.text ++ String.ofList cs }

theorem addChars_nil (e : Opened) : e.addChars [] = e := by
  simp [addChars]

theorem addChars_addChars (e : Opened) (cs ds : List Char) :
    (e.addChars cs).addChars ds = e.addChars (cs ++ ds) := by
  simp [addChars, String.append_assoc]

end Opened

namespace Document

variable {opened : List Symbols} {e : Opened} {outer : List Opened} {root : Option Node}
  {cs : List Char}

/-- What becomes of the open elements, where `opened` has the names in their tags. -/
def readTokens (opened : List Symbols) (d : Document) (tokens : List Token) :
    Except Error Document :=
  (Event.ofTokens opened tokens).foldlM step d

def read (opened : List Symbols) (d : Document) (cs : List Char) : Except Error Document :=
  readTokens opened d (Token.scan (Symbols.ofChars cs))

theorem read_nil (d : Document) : read opened d [] = .ok d := by
  rw [read, Symbols.ofChars, List.map_nil, Token.scan]
  rfl

section Text

variable {e : Opened} {outer : List Opened} {root : Option Node} {tokens : List Token}

theorem readTokens_text (cs : List Char) :
    readTokens opened ⟨e :: outer, root⟩ (.text (Symbols.ofChars cs) :: tokens) =
      readTokens opened ⟨e.addChars cs :: outer, root⟩ tokens := by
  have hstep : step ⟨e :: outer, root⟩ (.text (Symbols.ofChars cs)) =
      .ok ⟨e.addChars cs :: outer, root⟩ := by
    rw [step, addText, decoded, Symbols.decode_ofChars]
    rfl
  rw [readTokens, Event.ofTokens, List.foldlM_cons, hstep]
  rfl

theorem readTokens_reference {name : List Char} {c : Char}
    (h : Reference.resolve name = .ok [c]) :
    readTokens opened ⟨e :: outer, root⟩ (.reference (Symbols.ofChars name) :: tokens) =
      readTokens opened ⟨e.addChars [c] :: outer, root⟩ tokens := by
  have hstep : step ⟨e :: outer, root⟩ (.reference (Symbols.ofChars name)) =
      .ok ⟨e.addChars [c] :: outer, root⟩ := by
    rw [step, addText, resolved, decoded, Symbols.decode_ofChars]
    show Except.map _ (((Reference.resolve (String.ofList name).toList).mapError _) >>= _) = _
    rw [String.toList_ofList, h]
    rfl
  rw [readTokens, Event.ofTokens, List.foldlM_cons, hstep]
  rfl

theorem read_run (cs : List Char) :
    read opened ⟨e :: outer, root⟩ cs =
      read opened ⟨e.addChars (cs.takeWhile isPlain) :: outer, root⟩ (cs.dropWhile isPlain) := by
  cases cs with
  | nil => rw [List.takeWhile_nil, List.dropWhile_nil, Opened.addChars_nil]
  | cons c cs =>
      by_cases hc : isPlain c = true
      · have hscan : Token.scan (Symbols.ofChars (c :: cs)) =
            .text (Symbols.ofChars (c :: cs.takeWhile isPlain)) ::
              Token.scan (Symbols.ofChars (cs.dropWhile isPlain)) := by
          have hne : Symbol.char c ≠ .char '<' ∧ Symbol.char c ≠ .char '&' := by
            rw [isPlain, Token.isText, Bool.and_eq_true, bne_iff_ne, bne_iff_ne] at hc
            exact hc
          show Token.scan (.char c :: Symbols.ofChars cs) = _
          rw [Token.scan, Token.next, if_neg hne.1, if_neg hne.2]
          dsimp only
          rw [Symbols.takeWhile_ofChars, Symbols.dropWhile_ofChars]
          rfl
        rw [List.takeWhile_cons_of_pos hc, List.dropWhile_cons_of_pos hc, read, hscan,
          readTokens_text, read]
      · rw [List.takeWhile_cons_of_neg hc, List.dropWhile_cons_of_neg hc, Opened.addChars_nil]

theorem read_chars {run : List Char} (h : ∀ c ∈ run, isPlain c = true) (cs : List Char) :
    read opened ⟨e :: outer, root⟩ (run ++ cs) =
      read opened ⟨e.addChars run :: outer, root⟩ cs := by
  rw [read_run, read_run cs, List.takeWhile_append_of_pos h, List.dropWhile_append_of_pos h,
    Opened.addChars_addChars]

theorem referenced_run {name : Symbols} (h : ∀ x ∈ name, Token.isReferenceName x = true)
    (rest : Symbols) : (Token.referenced (name ++ .char ';' :: rest)).token = .reference name ∧
      (Token.referenced (name ++ .char ';' :: rest)).rest = rest := by
  have hdrop : (name ++ .char ';' :: rest).dropWhile Token.isReferenceName = .char ';' :: rest :=
    dropWhile_run h (by decide)
  have htake : (name ++ .char ';' :: rest).takeWhile Token.isReferenceName = name :=
    takeWhile_run h (by decide)
  unfold Token.referenced
  split
  next hnil => rw [hdrop] at hnil; cases hnil
  next x after hcons =>
    rw [hdrop] at hcons
    cases hcons
    rw [if_pos rfl, htake]
    exact ⟨rfl, rfl⟩

theorem alpha_isReferenceName {name : List Char} (h : ∀ x ∈ name, x.isAlpha = true) :
    ∀ x ∈ Symbols.ofChars name, Token.isReferenceName x = true := by
  intro x hx
  obtain ⟨c, hc, rfl⟩ := List.mem_map.1 hx
  have ha := h c hc
  have hne (d : Char) (hd : d.isAlpha = false) : (Symbol.char c != .char d) = true := by
    rw [bne_iff_ne]
    intro he
    cases he
    rw [hd] at ha
    cases ha
  rw [Token.isReferenceName, hne ';' rfl, hne '&' rfl, hne '<' rfl]
  rfl

theorem read_reference {name : List Char} {c : Char} (hname : ∀ x ∈ name, x.isAlpha = true)
    (h : Reference.resolve name = .ok [c]) (cs : List Char) :
    read opened ⟨e :: outer, root⟩ ('&' :: (name ++ [';']) ++ cs) =
      read opened ⟨e.addChars [c] :: outer, root⟩ cs := by
  have hsplit : Symbols.ofChars ('&' :: (name ++ [';']) ++ cs) =
      .char '&' :: (Symbols.ofChars name ++ .char ';' :: Symbols.ofChars cs) := by
    simp [Symbols.ofChars]
  obtain ⟨htoken, hrest⟩ := referenced_run (alpha_isReferenceName hname) (Symbols.ofChars cs)
  rw [read, hsplit, Token.scan, Token.next, if_neg (by decide), if_pos rfl]
  rw [htoken, hrest, readTokens_reference h, read]

theorem read_escaped (content cs : List Char) :
    read opened ⟨e :: outer, root⟩ (content.flatMap Escape.text.written ++ cs) =
      read opened ⟨e.addChars content :: outer, root⟩ cs := by
  induction content generalizing e with
  | nil => rw [List.flatMap_nil, List.nil_append, Opened.addChars_nil]
  | cons c content ih =>
      have hadd : e.addChars (c :: content) = (e.addChars [c]).addChars content :=
        (Opened.addChars_addChars e [c] content).symm
      rw [List.flatMap_cons, List.append_assoc, hadd, ← ih]
      rcases Escape.text.written_cases c with ⟨hself, hamp, hlt, -⟩ | ⟨name, hname, halpha, hfound⟩
      · have hplain : ∀ x ∈ [c], isPlain x = true := by
          intro x hx
          obtain rfl := List.mem_singleton.1 hx
          rw [isPlain, Token.isText, Bool.and_eq_true, bne_iff_ne, bne_iff_ne]
          exact ⟨fun he => hlt (Symbol.char.inj he), fun he => hamp (Symbol.char.inj he)⟩
        rw [hself, read_chars hplain]
      · rw [hname, read_reference halpha (Reference.resolve_named hfound)]

end Text

end Document

end DataTree.Xml
