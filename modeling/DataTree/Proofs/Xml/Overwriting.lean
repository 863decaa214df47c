import DataTree.Proofs.Xml.Attributes

namespace DataTree.Xml.Node

open Backend (Wrote)

variable {x node node' m : Node} {path : Path} {name : String}

/-- What a node is where it was written: itself, or an element with its content. -/
inductive Intact (x : Node) : Node → Prop
  | same : Intact x x
  | named (name : String) : Intact x (x.named name)

/-- A write puts a node in the place of a child without a name, and the node is none itself. -/
inductive Misplaces (x : Node) : Path → Node → Prop
  | last {node : Node} {slot : Slot Node} : Backend.fieldSlot node "" = .ok (some slot) →
      isNamed "" x = false → Misplaces x [.name ""] node
  | step {key : Key} {rest : Path} {node child : Node} :
      Backend.child node key = .ok (some child) → Misplaces x rest child →
      Misplaces x (key :: rest) node

theorem intact_assign (node x : Node) : Intact x (assign node x) := by
  cases node with
  | element name attributes children content =>
      rw [assign]
      split
      next => exact .same
      next => exact .named name
  | _ => exact .same

theorem scalar_intact (h : Intact x m) (hx : x ≠ .text "") {hint : ScalarKind} {v : Value}
    (hv : Backend.scalar x hint = .ok v) : Backend.scalar m hint = .ok v := by
  cases h with
  | same => exact hv
  | named name =>
      cases x with
      | text content =>
          have hcontent : content ≠ "" := fun h => hx (congrArg Node.text h)
          show scalar (.element name [] [] content) hint = _
          rw [scalar, if_pos hcontent]
          exact hv
      | element own attributes children content =>
          rw [← hv]
          cases attributes <;> cases children <;> rfl
      | list items => cases hv

theorem setAt_target (x node : Node) : Backend.setAt x false [] node = .ok () (assign node x) := rfl

theorem assign_unnamed (h : isNamed "" node = true) (x : Node) : assign node x = x := by
  obtain ⟨attributes, children, content, rfl⟩ := isNamed_iff.1 h
  rfl

theorem isNamed_wrote_unmerged (w : Wrote x false path node node') (h : isNamed name node = true)
    (hx : path = [] → name = "" → isNamed "" x = true) : isNamed name node' = true := by
  by_cases hpath : path = []
  · subst hpath
    cases w with
    | target hset =>
        cases (setAt_target x node).symm.trans hset
        by_cases hname : name = ""
        · subst hname
          rw [assign_unnamed h]
          exact hx rfl rfl
        · exact isNamed_assign hname h x
  · rwa [isNamed_wrote_below w hpath]

theorem child_text (content : String) (key : Key) (child : Node) :
    Backend.child (.text content) key ≠ .ok (some child) := by
  cases key <;> exact nofun

theorem not_misplaces_text (content : String) : ¬ Misplaces x path (.text content) := by
  rintro (⟨hslot, -⟩ | ⟨hchild, -⟩)
  · cases hslot
  · exact child_text content _ _ hchild

theorem not_misplaces_emptyFor (next : Key) (rest : Path) :
    ¬ Misplaces x (next :: rest) (Backend.emptyFor next) := by
  rintro (⟨hslot, -⟩ | ⟨hchild, -⟩)
  · cases hslot
  · cases next <;> cases hchild

theorem get_wrote_intact (w : Wrote x false path node node') (h : ¬ Misplaces x path node) :
    ∃ m, Backend.get node' path = .ok (some m) ∧ Intact x m := by
  induction w with
  | @target node node' hset =>
      cases (setAt_target x node).symm.trans hset
      exact ⟨_, rfl, intact_assign node x⟩
  | item hslot _ ih =>
      obtain ⟨m, hget, hm⟩ := ih fun hbelow => h (.step (item_slot hslot) hbelow)
      exact ⟨m, Backend.get_cons_eq_some.2 ⟨_, item_refill_self hslot _, hget⟩, hm⟩
  | @field node inner name slot rest hslot w ih =>
      obtain ⟨m, hget, hm⟩ := ih fun hbelow => h (.step (field_slot hslot) hbelow)
      -- the write can only be found if its child still has the name
      have hinner : isNamed name inner = true := by
        refine isNamed_wrote_unmerged w (isNamed_slot hslot) ?_
        rintro rfl rfl
        by_contra hx
        exact h (.last hslot (Bool.eq_false_iff.2 hx))
      exact ⟨m, Backend.get_cons_eq_some.2 ⟨_, field_refill_self hslot hinner, hget⟩, hm⟩
  | @fresh node node' name _ hinsert =>
      exact ⟨x.named name, Backend.get_cons_eq_some.2 ⟨_, field_insertField_self hinsert, rfl⟩,
        .named name⟩
  | @branch node branch node' name next rest _ w hinsert ih =>
      obtain ⟨m, hget, hm⟩ := ih (not_misplaces_emptyFor next rest)
      exact ⟨m, Backend.get_cons_eq_some.2
        ⟨_, field_insertField_self hinsert, get_named_branch w name hget⟩, hm⟩

theorem filter_replaceNamed_eq_nil {one : Node} (hx : isNamed name x = false) {children : List Node}
    (h : children.filter (isNamed name) = [one]) :
    (replaceNamed name x children).filter (isNamed name) = [] := by
  induction children with
  | nil => cases h
  | cons y ys ih =>
      rw [replaceNamed]
      by_cases hy : isNamed name y = true
      · rw [List.filter_cons_of_pos hy, List.cons.injEq] at h
        rw [if_pos hy, List.filter_cons_of_neg (Bool.eq_false_iff.1 hx), h.2]
      · rw [List.filter_cons_of_neg hy] at h
        rw [if_neg hy, List.filter_cons_of_neg hy, ih h]

theorem get_refill_unnamed {slot : Slot Node}
    (h : Backend.fieldSlot node name = .ok (some slot)) (hx : isNamed name x = false) :
    ∃ own attributes children content, node = Node.element own attributes children content ∧
      Backend.get (slot.refill x) [.name name] =
        .ok ((List.lookup name attributes).map Node.text) := by
  obtain ⟨own, attributes, children, content, one, rfl, hone, rfl⟩ := fieldSlot_eq_some h
  refine ⟨own, attributes, children, content, rfl, ?_⟩
  rw [Backend.get, Backend.child, field_element, filter_replaceNamed_eq_nil hx hone]
  cases List.lookup name attributes <;> rfl

theorem get_wrote_misplaced (w : Wrote x false path node node') (h : Misplaces x path node) :
    ∃ own attributes children content,
      Backend.get node path.dropLast = .ok (some (Node.element own attributes children content)) ∧
        Backend.get node' path = .ok ((List.lookup "" attributes).map Node.text) := by
  induction h generalizing node' with
  | @last node slot hslot hx =>
      obtain ⟨own, attributes, children, content, rfl, hget⟩ := get_refill_unnamed hslot hx
      refine ⟨own, attributes, children, content, rfl, ?_⟩
      cases w with
      | field hslot' w =>
          cases hslot.symm.trans hslot'
          cases w with
          | target hset =>
              cases (setAt_target x slot.node).symm.trans hset
              rwa [assign_unnamed (isNamed_slot hslot)]
      | fresh hslot' _ => cases hslot.symm.trans hslot'
  | @step key rest node child hchild hbelow ih =>
      have hrest : rest ≠ [] := by
        rintro rfl
        cases hbelow
      rw [List.dropLast_cons_of_ne_nil hrest]
      cases w with
      | item hslot w =>
          cases hchild.symm.trans (item_slot hslot)
          obtain ⟨own, attributes, children, content, hparent, hget⟩ := ih w
          exact ⟨own, attributes, children, content,
            Backend.get_cons_eq_some.2 ⟨_, hchild, hparent⟩,
            (Backend.get_cons (show Backend.child _ (.index _) = _ from item_refill_self hslot _)
              rest).trans (mapError_eq_ok.2 hget)⟩
      | field hslot w =>
          cases hchild.symm.trans (field_slot hslot)
          obtain ⟨own, attributes, children, content, hparent, hget⟩ := ih w
          have hinner := (isNamed_wrote_below w hrest).trans (isNamed_slot hslot)
          exact ⟨own, attributes, children, content,
            Backend.get_cons_eq_some.2 ⟨_, hchild, hparent⟩,
            (Backend.get_cons
              (show Backend.child _ (.name _) = _ from field_refill_self hslot hinner)
              rest).trans (mapError_eq_ok.2 hget)⟩
      | fresh _ _ => exact absurd rfl hrest
      | branch hslot _ _ =>
          -- without a child the name is an attribute, and nothing is below it
          obtain ⟨own, attributes, children, content, rfl, hnone⟩ := fieldSlot_eq_none hslot
          rw [Backend.child, field_element, hnone] at hchild
          obtain ⟨s, -, rfl⟩ := Option.map_eq_some_iff.1 (Except.ok.inj hchild)
          exact absurd hbelow (not_misplaces_text s)

theorem Misplaces.getLast?_eq (h : Misplaces x path node) : path.getLast? = some (.name "") := by
  induction h with
  | last _ _ => rfl
  | @step key rest node child _ hbelow ih =>
      cases rest with
      | nil => cases hbelow
      | cons next rest => rwa [List.getLast?_cons_cons]

/-- What a write without merging does that succeeds. Unless it displaces a child of the empty name,
the node is found where it was written, with the same scalars, of which an empty text is none. If it
does, nothing is found but an attribute, and in trees made by values and writes nothing at all. -/
theorem get_set_unmerged (h : Backend.set node path x false = .ok node') :
    (¬ Misplaces x path node →
      ∃ m, Backend.get node' path = .ok (some m) ∧ Intact x m ∧
        (x ≠ .text "" → ∀ hint v, Backend.scalar x hint = .ok v → Backend.scalar m hint = .ok v)) ∧
      (Misplaces x path node →
        ∃ own attributes children content,
          Backend.get node path.dropLast =
              .ok (some (Node.element own attributes children content)) ∧
            Backend.get node' path = .ok ((List.lookup "" attributes).map Node.text) ∧
            (Grown node → attributes = [])) := by
  have w := Backend.wrote_of_setAt (Backend.setAt_of_set h)
  constructor
  · intro hplace
    obtain ⟨m, hget, hm⟩ := get_wrote_intact w hplace
    exact ⟨m, hget, hm, fun hx hint v => scalar_intact hm hx⟩
  · intro hmisplaced
    obtain ⟨own, attributes, children, content, hparent, hget⟩ := get_wrote_misplaced w hmisplaced
    exact ⟨own, attributes, children, content, hparent, hget, fun hgrown =>
      (bare_element.1 (hgrown.bare.get hparent)).1⟩

/-- Below a child of the empty name nothing is displaced. -/
theorem get_set_unmerged_below :
    let tree : Node := .element "" [] [.element "" [] [] "a"] ""
    ∃ tree' m, Backend.set tree [.name "", .name "n"] (.text "1") false = .ok tree' ∧
      Backend.get tree' [.name "", .name "n"] = .ok (some m) ∧ Intact (.text "1") m ∧
      Backend.scalar m .int = .ok (Value.int 1) := by
  intro tree
  have hset : Backend.set tree [.name "", .name "n"] (.text "1") false =
      .ok (.element "" [] [.element "" [] [.element "n" [] [] "1"] "a"] "") := rfl
  have hplace : ¬ Misplaces (.text "1") [.name "", .name "n"] tree := fun h =>
    absurd h.getLast?_eq (by decide)
  obtain ⟨m, hget, hm, hscalar⟩ := (get_set_unmerged hset).1 hplace
  exact ⟨_, m, hset, hget, hm, hscalar (by simp) .int _ rfl⟩

/-- A text that is written over a child of the empty name is lost, although the write succeeds. -/
theorem set_over_unnamed_lost :
    ∃ tree x tree' : Node, ofValue (.object [("", Value.string "a")]) = .ok tree ∧
      ofValue (Value.string "b") = .ok x ∧ Backend.set tree [.name ""] x false = .ok tree' ∧
      Backend.get tree' [.name ""] = .ok none :=
  ⟨_, _, _, rfl, rfl, rfl, rfl⟩

end DataTree.Xml.Node
