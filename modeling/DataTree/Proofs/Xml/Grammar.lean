import DataTree.Proofs.Fields
import DataTree.Proofs.Outcome
import DataTree.Proofs.Xml.Tags
import DataTree.Xml.Reader

namespace DataTree.Xml

namespace Attribute

/-- What is kept of some attributes, each under its local name: all but those that declare a
namespace. -/
inductive Kept : List Attribute → List (String × String) → Prop
  | nil : Kept [] []
  | declaration {key value : Symbols} {rest : List Attribute} {kept : List (String × String)}
      (hkey : isDeclaration key = true) (hrest : Kept rest kept) :
      Kept (.given key value :: rest) kept
  | named {key value : Symbols} {rest : List Attribute} {kept : List (String × String)}
      {name s : String} (hkey : isDeclaration key = false)
      (hname : (localName key).decode = .ok name) (hvalue : valueText value = .ok s)
      (hrest : Kept rest kept) : Kept (.given key value :: rest) ((name, s) :: kept)

theorem collect_eq_ok_iff {given : List Attribute} {known attributes : List (String × String)} :
    collect given known = .ok attributes ↔
      ∃ kept, Kept given kept ∧ attributes = Fields.putAll kept known := by
  induction given generalizing known with
  | nil =>
      rw [collect, Except.ok.injEq]
      constructor
      · rintro rfl
        exact ⟨[], .nil, rfl⟩
      · rintro ⟨kept, hkept, rfl⟩
        cases hkept
        rfl
  | cons first rest ih =>
      cases first with
      | broken fault =>
          rw [collect]
          constructor
          · intro h
            cases h
          · rintro ⟨kept, hkept, -⟩
            cases hkept
      | given key value =>
          rw [collect]
          cases hkey : isDeclaration key with
          | true =>
              rw [if_pos rfl, ih]
              constructor
              · rintro ⟨kept, hkept, he⟩
                exact ⟨kept, .declaration hkey hkept, he⟩
              · rintro ⟨kept, hkept, he⟩
                cases hkept with
                | declaration _ hrest => exact ⟨kept, hrest, he⟩
                | named hother => cases hother.symm.trans hkey
          | false =>
              rw [if_neg Bool.false_ne_true]
              simp only [bind_eq_ok, mapError_eq_ok, ih]
              constructor
              · rintro ⟨name, hname, s, hvalue, kept, hkept, he⟩
                exact ⟨(name, s) :: kept, .named hkey hname hvalue hkept, he⟩
              · rintro ⟨kept, hkept, he⟩
                cases hkept with
                | declaration hother => cases hother.symm.trans hkey
                | named _ hname hvalue hrest => exact ⟨_, hname, _, hvalue, _, hrest, he⟩

end Attribute

namespace Event

/-- The tag is one of an element with this name and these attributes. Of attributes with one local
name the last one counts, at the place of the first. -/
structure Opens (tag : Symbols) (name : String) (attributes : List (String × String)) : Prop where
  name : (Attribute.localName (tagName tag)).decode = .ok name
  attributes : ∃ kept,
    Attribute.Kept (Attribute.scan tag.width [] (tag.drop (tagName tag).length)) kept ∧
      Fields.Settles kept attributes

/-- The event is a piece of the text that it stands in. -/
inductive Piece : Event → String → Prop
  | text {content : Symbols} {s : String} (h : content.decode = .ok s) : Piece (.text content) s
  | cdata {content : Symbols} {s : String} (h : content.decode = .ok s) : Piece (.cdata content) s
  | reference {name : Symbols} {raw : String} {cs : List Char} (h : name.decode = .ok raw)
      (hcs : Reference.resolve raw.toList = .ok cs) : Piece (.reference name) (String.ofList cs)

def Sound : Event → Prop
  | .start tag | .empty tag => ∃ name attributes, Opens tag name attributes
  | .text content => ∃ s, Piece (.text content) s
  | .cdata content => ∃ s, Piece (.cdata content) s
  | .reference name => ∃ s, Piece (.reference name) s
  | .stop | .aside => True
  | .broken _ => False

/-- Whole elements side by side, and the text between them. -/
inductive Forest : List Event → List Node → String → Prop
  | nil : Forest [] [] ""
  | empty {tag : Symbols} {name : String} {attributes : List (String × String)}
      {rest : List Event} {nodes : List Node} {text : String} (htag : Opens tag name attributes)
      (hrest : Forest rest nodes text) :
      Forest (.empty tag :: rest) (.element name attributes [] "" :: nodes) text
  | element {tag : Symbols} {name content : String} {attributes : List (String × String)}
      {inside rest : List Event} {children nodes : List Node} {text : String}
      (htag : Opens tag name attributes) (hinside : Forest inside children content)
      (hrest : Forest rest nodes text) :
      Forest (.start tag :: (inside ++ .stop :: rest))
        (.element name attributes children (Text.trim content) :: nodes) text
  | piece {e : Event} {s text : String} {rest : List Event} {nodes : List Node}
      (hpiece : Piece e s) (hrest : Forest rest nodes text) : Forest (e :: rest) nodes (s ++ text)
  | aside {rest : List Event} {nodes : List Node} {text : String}
      (hrest : Forest rest nodes text) : Forest (.aside :: rest) nodes text

/-- Every end in the events is the end of an element that starts in them. -/
def Unclosed (events : List Event) : Prop :=
  ∀ front rest nodes text, events = front ++ .stop :: rest → ¬ Forest front nodes text

/-- Behind some whole elements comes an end of none, or the start of one that never ends. -/
inductive Unbalanced : List Event → List Node → Prop
  | stop {front rest : List Event} {nodes : List Node} {text : String}
      (hfront : Forest front nodes text) : Unbalanced (front ++ .stop :: rest) nodes
  | start {front rest : List Event} {tag : Symbols} {nodes : List Node} {text : String}
      (hfront : Forest front nodes text) (hrest : Unclosed rest) :
      Unbalanced (front ++ .start tag :: rest) nodes

variable {events front rest : List Event} {nodes more : List Node} {text further : String}

theorem Forest.append (h : Forest front nodes text) (hrest : Forest rest more further) :
    Forest (front ++ rest) (nodes ++ more) (text ++ further) := by
  induction h with
  | nil => simpa using hrest
  | empty htag _ ih => exact .empty htag ih
  | element htag hinside _ _ ih =>
      rw [List.cons_append, List.append_assoc]
      exact .element htag hinside ih
  | piece hpiece _ ih =>
      rw [String.append_assoc]
      exact .piece hpiece ih
  | aside _ ih => exact .aside ih

theorem Unbalanced.behind (h : Forest front nodes text) (hrest : Unbalanced rest more) :
    Unbalanced (front ++ rest) (nodes ++ more) := by
  cases hrest with
  | stop hfront =>
      rw [← List.append_assoc]
      exact .stop (h.append hfront)
  | start hfront hopen =>
      rw [← List.append_assoc]
      exact .start (h.append hfront) hopen

theorem forest_or_unbalanced (hs : ∀ e ∈ events, e.Sound) :
    (∃ nodes text, Forest events nodes text) ∨ ∃ nodes, Unbalanced events nodes := by
  -- by length: what stands behind an element begins only after its end
  induction hn : events.length using Nat.strongRecOn generalizing events with
  | ind n ih =>
      subst hn
      have behind {front rest : List Event} {nodes : List Node} {text : String}
          (hfront : Forest front nodes text) (he : events = front ++ rest) (hne : front ≠ []) :
          (∃ nodes text, Forest events nodes text) ∨ ∃ nodes, Unbalanced events nodes := by
        subst he
        have hlt : rest.length < (front ++ rest).length := by
          have := List.length_pos_iff.2 hne
          simp only [List.length_append]
          omega
        rcases ih _ hlt (fun e he => hs e (List.mem_append_right _ he)) rfl with
          ⟨more, further, hrest⟩ | ⟨more, hrest⟩
        · exact .inl ⟨_, _, hfront.append hrest⟩
        · exact .inr ⟨_, hrest.behind hfront⟩
      cases events with
      | nil => exact .inl ⟨_, _, .nil⟩
      | cons e rest =>
          obtain ⟨he, hrest⟩ := List.forall_mem_cons.1 hs
          cases e with
          | start tag =>
              obtain ⟨name, attributes, htag⟩ := he
              by_cases hopen : Unclosed rest
              · exact .inr ⟨_, .start .nil hopen⟩
              · simp only [Unclosed, not_forall, not_not] at hopen
                obtain ⟨inside, after, children, content, rfl, hinside⟩ := hopen
                have hcut : .start tag :: (inside ++ .stop :: after) =
                    .start tag :: (inside ++ [.stop]) ++ after := by simp
                exact behind (.element htag hinside .nil) hcut (List.cons_ne_nil _ _)
          | empty tag =>
              obtain ⟨name, attributes, htag⟩ := he
              exact behind (.empty htag .nil) rfl (List.cons_ne_nil _ _)
          | stop => exact .inr ⟨_, .stop .nil⟩
          | text content =>
              obtain ⟨s, hpiece⟩ := he
              exact behind (.piece hpiece .nil) rfl (List.cons_ne_nil _ _)
          | cdata content =>
              obtain ⟨s, hpiece⟩ := he
              exact behind (.piece hpiece .nil) rfl (List.cons_ne_nil _ _)
          | reference name =>
              obtain ⟨s, hpiece⟩ := he
              exact behind (.piece hpiece .nil) rfl (List.cons_ne_nil _ _)
          | aside => exact behind (.aside .nil) rfl (List.cons_ne_nil _ _)
          | broken fault => exact he.elim

end Event

namespace Document

open Event

variable {events rest : List Event} {nodes : List Node} {text : String}

theorem ofTag_eq_ok_iff {tag : Symbols} {e : Opened} : Opened.ofTag tag = .ok e ↔
    Opens tag e.name e.attributes ∧ e.children = [] ∧ e.text = "" := by
  rw [Opened.ofTag]
  simp only [bind_eq_ok, mapError_eq_ok, Attribute.collect_eq_ok_iff, pure, Except.pure,
    Except.ok.injEq]
  constructor
  · rintro ⟨name, hname, attributes, ⟨kept, hkept, he⟩, rfl⟩
    exact ⟨⟨hname, kept, hkept, Fields.settles_iff.2 he⟩, rfl, rfl⟩
  · obtain ⟨name, attributes, children, content⟩ := e
    rintro ⟨⟨hname, kept, hkept, hsettles⟩, rfl, rfl⟩
    exact ⟨name, hname, attributes, ⟨kept, hkept, Fields.settles_iff.1 hsettles⟩, rfl⟩

section Steps

variable {tag : Symbols} {name : String} {attributes : List (String × String)}

theorem step_start (h : Opens tag name attributes) (d : Document) :
    step d (.start tag) = .ok ⟨⟨name, attributes, [], ""⟩ :: d.opened, d.root⟩ := by
  rw [step, (ofTag_eq_ok_iff (e := ⟨name, attributes, [], ""⟩)).2 ⟨h, rfl, rfl⟩]
  rfl

theorem step_empty (h : Opens tag name attributes) (d : Document) :
    step d (.empty tag) = d.attach (.element name attributes [] "") := by
  rw [step, (ofTag_eq_ok_iff (e := ⟨name, attributes, [], ""⟩)).2 ⟨h, rfl, rfl⟩]
  rfl

theorem step_piece {e : Event} {s : String} (h : Piece e s) (d : Document) :
    step d e = d.addText (.ok s) := by
  cases h with
  | text h =>
      rw [step, decoded, h]
      rfl
  | cdata h =>
      rw [step, h]
      rfl
  | @reference name raw cs h hcs =>
      have hresolved : resolved name = .ok (String.ofList cs) := by
        rw [resolved, decoded, h]
        show (Reference.resolve _).mapError Error.parse >>= _ = _
        rw [hcs]
        rfl
      rw [step, hresolved]

end Steps

/-- The events add whole elements to the element they stand in, and a text to its text. -/
def Adds (events : List Event) (nodes : List Node) (text : String) : Prop :=
  ∀ (e : Opened) (outer : List Opened) (root : Option Node),
    events.foldlM step ⟨e :: outer, root⟩ =
      .ok ⟨⟨e.name, e.attributes, e.children ++ nodes, e.text ++ text⟩ :: outer, root⟩

theorem run_element {tag : Symbols} {name content : String} {attributes : List (String × String)}
    {inside : List Event} {children : List Node} (htag : Opens tag name attributes)
    (hinside : Adds inside children content) (rest : List Event) (d : Document) :
    (.start tag :: (inside ++ .stop :: rest)).foldlM step d =
      d.attach (.element name attributes children (Text.trim content)) >>=
        fun d => rest.foldlM step d := by
  rw [List.foldlM_cons, step_start htag]
  show (inside ++ .stop :: rest).foldlM step ⟨_ :: d.opened, d.root⟩ = _
  rw [List.foldlM_append, hinside]
  show (.stop :: rest).foldlM step ⟨_ :: d.opened, d.root⟩ = _
  rw [List.foldlM_cons, step, List.nil_append, String.empty_append]
  rfl

theorem run_inside (h : Forest events nodes text) : Adds events nodes text := by
  induction h with
  | nil =>
      intro e outer root
      rw [List.foldlM_nil, List.append_nil, String.append_empty]
      rfl
  | empty htag _ ih =>
      intro e outer root
      rw [List.foldlM_cons, step_empty htag]
      show List.foldlM step ⟨_ :: outer, root⟩ _ = _
      rw [ih, List.append_assoc]
      rfl
  | element htag _ _ hinside ih =>
      intro e outer root
      rw [run_element htag hinside]
      show List.foldlM step ⟨_ :: outer, root⟩ _ = _
      rw [ih, List.append_assoc]
      rfl
  | piece hpiece _ ih =>
      intro e outer root
      rw [List.foldlM_cons, step_piece hpiece]
      show List.foldlM step ⟨_ :: outer, root⟩ _ = _
      rw [ih, String.append_assoc]
  | aside _ ih =>
      intro e outer root
      exact ih e outer root

def ofRoots : List Node → Except Error Document
  | [] => .ok ⟨[], none⟩
  | [node] => .ok ⟨[], some node⟩
  | _ => .error .multipleRoots

theorem attach_ofRoots {nodes : List Node} (h : ∀ root : Option Node,
    rest.foldlM step ⟨[], root⟩ = ofRoots (root.toList ++ nodes)) (root : Option Node)
    (node : Node) : (attach ⟨[], root⟩ node >>= fun d => rest.foldlM step d) =
      ofRoots (root.toList ++ node :: nodes) := by
  cases root with
  | none => exact h (some node)
  | some first => rfl

theorem run_outside (h : Forest events nodes text) (root : Option Node) :
    events.foldlM step ⟨[], root⟩ = ofRoots (root.toList ++ nodes) := by
  induction h generalizing root with
  | nil => cases root <;> rfl
  | empty htag _ ih =>
      rw [List.foldlM_cons, step_empty htag]
      exact attach_ofRoots ih root _
  | element htag hinside _ _ ih =>
      rw [run_element htag (run_inside hinside)]
      exact attach_ofRoots ih root _
  | piece hpiece _ ih =>
      rw [List.foldlM_cons, step_piece hpiece]
      exact ih root
  | aside _ ih => exact ih root

theorem run_unclosed {tag : Symbols} (hs : ∀ e ∈ .start tag :: rest, e.Sound) (h : Unclosed rest)
    (d : Document) : ∃ e outer, (.start tag :: rest).foldlM step d = .ok ⟨e :: outer, d.root⟩ := by
  induction hn : rest.length using Nat.strongRecOn generalizing tag rest d with
  | ind n ih =>
      subst hn
      obtain ⟨⟨name, attributes, htag⟩, hsrest⟩ := List.forall_mem_cons.1 hs
      rw [List.foldlM_cons, step_start htag]
      show ∃ e outer, rest.foldlM step ⟨_ :: d.opened, d.root⟩ = _
      rcases forest_or_unbalanced hsrest with ⟨nodes, text, hforest⟩ | ⟨nodes, hunbalanced⟩
      · exact ⟨_, _, run_inside hforest _ d.opened d.root⟩
      · cases hunbalanced with
        | stop hfront => exact absurd hfront (h _ _ _ _ rfl)
        | @start front behind next _ _ hfront hbehind =>
            have hlt : behind.length < (front ++ .start next :: behind).length := by
              simp only [List.length_append, List.length_cons]
              omega
            rw [List.foldlM_append, run_inside hfront]
            exact ih _ hlt (List.forall_mem_append.1 hsrest).2 hbehind ⟨_ :: d.opened, d.root⟩ rfl

/-- Why a document is refused, by what comes first: an end or a start that has no partner, behind no
more than one element at the top; a second element at the top; or no element at all. -/
def Refused (events : List Event) : Error → Prop
  | .unbalancedTags => ∃ nodes, Unbalanced events nodes ∧ nodes.length ≤ 1
  | .multipleRoots =>
    ∃ front rest nodes text, events = front ++ rest ∧ Forest front nodes text ∧ 2 ≤ nodes.length
  | .noRoot => ∃ text, Forest events [] text
  | .parse _ | .invalidUtf8 _ => False

theorem ofRoots_of_length {nodes : List Node} (h : 2 ≤ nodes.length) :
    ofRoots nodes = .error .multipleRoots := by
  rcases nodes with _ | ⟨x, _ | ⟨y, rest⟩⟩
  · simp at h
  · simp at h
  · rfl

theorem exists_ofRoots {nodes : List Node} (h : nodes.length ≤ 1) :
    ∃ root, ofRoots nodes = .ok ⟨[], root⟩ := by
  rcases nodes with _ | ⟨x, _ | ⟨y, rest⟩⟩
  · exact ⟨_, rfl⟩
  · exact ⟨_, rfl⟩
  · simp at h

theorem ofEvents_of_refused (hs : ∀ e ∈ events, e.Sound) {e : Error} (h : Refused events e) :
    ofEvents events = .error e := by
  rw [ofEvents, start]
  cases e with
  | unbalancedTags =>
      obtain ⟨nodes, hunbalanced, hlen⟩ := h
      obtain ⟨root, hroot⟩ := exists_ofRoots hlen
      cases hunbalanced with
      | stop hfront =>
          rw [List.foldlM_append, run_outside hfront, Option.toList_none, List.nil_append, hroot]
          rfl
      | start hfront hrest =>
          obtain ⟨e, outer, hrun⟩ :=
            run_unclosed (List.forall_mem_append.1 hs).2 hrest ⟨[], root⟩
          rw [List.foldlM_append, run_outside hfront, Option.toList_none, List.nil_append, hroot]
          show (List.foldlM step ⟨[], root⟩ (.start _ :: _) >>= finish) = _
          rw [hrun]
          rfl
  | multipleRoots =>
      obtain ⟨front, rest, nodes, text, rfl, hfront, hlen⟩ := h
      rw [List.foldlM_append, run_outside hfront, Option.toList_none, List.nil_append,
        ofRoots_of_length hlen]
      rfl
  | noRoot =>
      obtain ⟨text, hforest⟩ := h
      rw [run_outside hforest]
      rfl
  | parse fault => exact h.elim
  | invalidUtf8 fault => exact h.elim

theorem ofEvents_of_forest {node : Node} (h : Forest events [node] text) :
    ofEvents events = .ok node := by
  rw [ofEvents, start, run_outside h]
  rfl

/-- The documents that are read are those of the grammar with one element at the top, which is what
they are read as. Every other one is refused for the first thing that is wrong with it. -/
theorem ofEvents_iff (hs : ∀ e ∈ events, e.Sound) :
    (∀ node, ofEvents events = .ok node ↔ ∃ text, Forest events [node] text) ∧
      ∀ e, ofEvents events = .error e ↔ Refused events e := by
  have htotal : (∃ node text, Forest events [node] text) ∨ ∃ e, Refused events e := by
    rcases forest_or_unbalanced hs with ⟨nodes, text, hforest⟩ | ⟨nodes, hunbalanced⟩
    · rcases nodes with _ | ⟨node, _ | ⟨other, more⟩⟩
      · exact .inr ⟨.noRoot, text, hforest⟩
      · exact .inl ⟨node, text, hforest⟩
      · exact .inr ⟨.multipleRoots, events, [], _, text, (List.append_nil _).symm, hforest,
          by simp⟩
    · by_cases hlen : nodes.length ≤ 1
      · exact .inr ⟨.unbalancedTags, nodes, hunbalanced, hlen⟩
      · have hmany : 2 ≤ nodes.length := by omega
        cases hunbalanced with
        | stop hfront => exact .inr ⟨.multipleRoots, _, _, _, _, rfl, hfront, hmany⟩
        | start hfront => exact .inr ⟨.multipleRoots, _, _, _, _, rfl, hfront, hmany⟩
  have hread : (∃ node text, Forest events [node] text) → ∃ node, ofEvents events = .ok node := by
    rintro ⟨node, text, h⟩
    exact ⟨node, ofEvents_of_forest h⟩
  obtain ⟨hgood, hbad⟩ := outcome_iff hread (fun e => ofEvents_of_refused hs) htotal
  refine ⟨fun node => ⟨fun hnode => ?_, ?_⟩, hbad⟩
  · obtain ⟨node', text, h⟩ := hgood.1 ⟨node, hnode⟩
    obtain rfl : node' = node := Except.ok.inj ((ofEvents_of_forest h).symm.trans hnode)
    exact ⟨text, h⟩
  · rintro ⟨text, h⟩
    exact ofEvents_of_forest h

/-- An element with text around its children, and what comes of one more, of an end more and of a
start more. -/
theorem ofEvents_iff_nested :
    let events : List Event := [.aside, .start (.ofText "r k=\"1\" j=\"&lt;\""),
      .text (.ofText " a"), .start (.ofText "n:x"), .cdata (.ofText "b "), .stop,
      .reference (.ofText "#x63"), .empty (.ofText "n:x"), .stop]
    let node : Node := .element "r" [("k", "1"), ("j", "<")]
      [.element "x" [] [] "b", .element "x" [] [] ""] "ac"
    (∀ e ∈ events, e.Sound) ∧ ofEvents events = .ok node ∧
      ofEvents (events ++ events) = .error .multipleRoots ∧
      ofEvents (events ++ [.stop]) = .error .unbalancedTags ∧
      ofEvents (events ++ [.start (.ofText "n:x")]) = .error .unbalancedTags := by
  intro events node
  have hr : Opens (.ofText "r k=\"1\" j=\"&lt;\"") "r" [("k", "1"), ("j", "<")] := by
    have htag := @ofTag_tagChars "r" [("k", "1"), ("j", "<")] (by decide) ⟨by decide, by decide⟩
    exact (ofTag_eq_ok_iff.1 htag).1
  have hx : Opens (.ofText "n:x") "x" [] := by
    refine ⟨rfl, [], ?_, Fields.settles_iff.2 rfl⟩
    show Attribute.Kept (Attribute.scan _ [] []) []
    rw [Attribute.scan_nil]
    exact .nil
  have ha : Piece (.text (.ofText " a")) " a" := .text rfl
  have hb : Piece (.cdata (.ofText "b ")) "b " := .cdata rfl
  have hc : Piece (.reference (.ofText "#x63")) "c" :=
    @Piece.reference (.ofText "#x63") "#x63" ['c'] rfl rfl
  have hinside : Forest [.cdata (.ofText "b ")] [] "b " := .piece hb .nil
  have hbehind : Forest [.reference (.ofText "#x63"), .empty (.ofText "n:x")]
      [.element "x" [] [] ""] "c" := .piece hc (.empty hx .nil)
  have hforest : Forest events [node] "" :=
    .aside (.element hr (.piece ha (.element hx hinside hbehind)) .nil)
  have hs : ∀ e ∈ events, e.Sound := by
    simp only [events, List.forall_mem_cons]
    exact ⟨trivial, ⟨_, _, hr⟩, ⟨_, ha⟩, ⟨_, _, hx⟩, ⟨_, hb⟩, trivial,
      ⟨_, hc⟩, ⟨_, _, hx⟩, trivial, List.forall_mem_nil _⟩
  have hstop : ∀ e ∈ [Event.stop], e.Sound := List.forall_mem_singleton.2 trivial
  have hstart : ∀ e ∈ [Event.start (.ofText "n:x")], e.Sound :=
    List.forall_mem_singleton.2 ⟨_, _, hx⟩
  have hopen : Unclosed [] := fun _ _ _ _ he => by simp at he
  refine ⟨hs, ((ofEvents_iff hs).1 node).2 ⟨_, hforest⟩, ?_, ?_, ?_⟩
  · exact ((ofEvents_iff (List.forall_mem_append.2 ⟨hs, hs⟩)).2 _).2
      (⟨_, [], _, _, (List.append_nil _).symm, hforest.append hforest, Nat.le_refl 2⟩ :
        Refused _ .multipleRoots)
  · exact ((ofEvents_iff (List.forall_mem_append.2 ⟨hs, hstop⟩)).2 _).2
      (⟨_, .stop hforest, Nat.le_refl 1⟩ : Refused _ .unbalancedTags)
  · exact ((ofEvents_iff (List.forall_mem_append.2 ⟨hs, hstart⟩)).2 _).2
      (⟨_, .start hforest hopen, Nat.le_refl 1⟩ : Refused _ .unbalancedTags)

end Document

end DataTree.Xml
