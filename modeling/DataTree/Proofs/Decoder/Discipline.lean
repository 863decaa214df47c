import DataTree.Proofs.Decoder.Run
import DataTree.Proofs.Effect

namespace DataTree.Decoding

variable {S U α β : Type}

/-- Only the claim and the cursor of the current level moved, and the claim was not taken back. -/
structure Kept (d d' : Decoder S U) : Prop where
  node : d'.current.node = d.current.node
  claimed : d.current.claimed = true → d'.current.claimed = true
  outer : d'.outer = d.outer
  path : d'.path = d.path
  naming : d'.naming = d.naming

namespace Kept

variable {d d' d'' : Decoder S U}

theorem refl (d : Decoder S U) : Kept d d := ⟨rfl, id, rfl, rfl, rfl⟩

theorem trans (h : Kept d d') (h' : Kept d' d'') : Kept d d'' where
  node := h'.node.trans h.node
  claimed := h'.claimed ∘ h.claimed
  outer := h'.outer.trans h.outer
  path := h'.path.trans h.path
  naming := h'.naming.trans h.naming

instance : Std.Refl (Kept (S := S) (U := U)) := ⟨refl⟩

instance : Trans (Kept (S := S) (U := U)) Kept Kept := ⟨trans⟩

end Kept

theorem looks_failAt (keys : Path) (fault : Fault) : Looks (failAt keys fault : Decoding S U α) :=
  fun _ => rfl

section Looks

variable [Backend S]

theorem looks_find (name : String) : Looks (Keyed.find name : Decoding S U (Option S)) := by
  refine Looks.get.bind fun d => ?_
  split
  next => exact .pure _
  next => exact looks_failAt _ _

theorem looks_require (name : String) : Looks (Keyed.require name : Decoding S U S) := by
  refine (looks_find name).bind fun found => ?_
  cases found with
  | some node => exact .pure node
  | none => exact looks_failAt _ _

theorem find_of_field {name : String} {node : S} {d : Decoder S U}
    (h : Backend.field d.current.node name = .ok (some node)) :
    Keyed.find name d = .ok (some node) d := by
  simp [Keyed.find, h]

theorem require_of_field {name : String} {node : S} {d : Decoder S U}
    (h : Backend.field d.current.node name = .ok (some node)) :
    Keyed.require name d = .ok node d := by
  simp [Keyed.require, find_of_field h]

theorem looks_isAtEnd : Looks (Sequential.isAtEnd : Decoding S U Bool) :=
  (Looks.read _).bind fun _ => (Looks.read _).bind fun _ => .pure _

theorem looks_next : Looks (Sequential.next : Decoding S U S) := by
  refine (Looks.read _).bind fun index => looks_isAtEnd.bind fun atEnd => ?_
  split
  next => exact (Looks.read _).bind fun count => looks_failAt _ _
  next =>
    refine Looks.get.bind fun d => ?_
    split
    next => exact .pure _
    next => exact looks_failAt _ _
    next => exact looks_failAt _ _

theorem looks_contains (key : String) : Looks (Keyed.contains key : Decoding S U Bool) := by
  refine Looks.get.bind fun d => ?_
  split
  next => exact .pure true
  next => exact .pure false

theorem looks_primitive (p : Primitive) :
    Looks (Single.decodePrimitive p : Decoding S U p.Carrier) := by
  refine Looks.get.bind fun d => ?_
  dsimp only
  split
  next => exact looks_failAt [] _
  next =>
    split
    next => exact .pure _
    next => exact looks_failAt [] _

theorem looks_tree : Looks (Single.decodeTree : Decoding S U Value) := by
  intro d
  rw [Single.decodeTree]
  split <;> rfl

theorem looks_delegateFor (key : String) :
    Looks (Keyed.delegateFor key : Decoding S U (Decoder S U)) :=
  (Looks.read _).bind fun name => (looks_find name).bind fun _ => Looks.read _

end Looks

section Keeps

theorem keeps_resume (other : Decoder S U) (body : Decoding S U α) :
    Keeps Kept (resume other body) := by
  intro d
  rw [resume]
  cases body { other with user := d.user } <;> exact ⟨rfl, id, rfl, rfl, rfl⟩

theorem keeps_runOn (other : Decoder S U) (body : Decoding S U α) :
    Keeps Kept (runOn other body) := by
  intro d
  rw [runOn]
  cases body { other with user := d.user } <;> exact ⟨rfl, id, rfl, rfl, rfl⟩

theorem leave_of_kept {key : Option Key} {node : S} {d d' : Decoder S U}
    (h : Kept (d.enter key node) d') : d'.leave key = { d with user := d'.user } := by
  obtain ⟨current, outer, path, naming, user⟩ := d'
  obtain rfl : outer = d.current :: d.outer := h.outer
  obtain rfl : path = d.path ++ key.toList := h.path
  obtain rfl : naming = d.naming := h.naming
  simp [Decoder.leave]

theorem kept_leave {key : Option Key} {node : S} {d d' : Decoder S U}
    (h : Kept (d.enter key node) d') : Kept d (d'.leave key) := by
  rw [leave_of_kept h]
  exact ⟨rfl, id, rfl, rfl, rfl⟩

variable {body : Decoding S U α}

theorem keeps_inside (h : Keeps Kept body) (key : Option Key) (node : S) :
    Keeps Kept (inside key node body) := by
  intro d
  have hbody := h (d.enter key node)
  rw [inside]
  cases hrun : body (d.enter key node) with
  | ok x d' =>
      rw [hrun] at hbody
      exact kept_leave hbody
  | error e d' =>
      rw [hrun] at hbody
      exact kept_leave hbody

theorem keeps_advance : Keeps Kept (Sequential.advance : Decoding S U Unit) := fun _ =>
  ⟨rfl, id, rfl, rfl, rfl⟩

variable [Backend S]

theorem keeps_request (c : Container) : Keeps Kept (request c : Decoding S U Unit) := by
  intro d
  rcases request_cases c d with ⟨-, -, hrun⟩ | ⟨-, e, hrun⟩
  · rw [hrun]
    exact ⟨rfl, fun _ => rfl, rfl, rfl, rfl⟩
  · rw [hrun]
    exact .refl d

theorem keeps_op (op : Op S U α) : Keeps Kept op.run := by
  cases op with
  | codingPath | naming | isNull | names | currentIndex | count => exact (Looks.read _).keeps
  | request c => exact keeps_request c
  | contains key => exact (looks_contains key).keeps
  | fieldIsNull key =>
      exact ((Looks.read _).bind fun name => (looks_require name).bind fun _ => .pure _).keeps
  | delegateFor key => exact (looks_delegateFor key).keeps
  | isAtEnd => exact looks_isAtEnd.keeps
  | passNull =>
      refine looks_next.keeps.bind fun node => ?_
      dsimp only
      split
      next => exact keeps_advance.bind fun _ => .pure _
      next => exact .pure _
  | primitive p => exact (looks_primitive p).keeps
  | tree => exact looks_tree.keeps
  | aside work => exact fun _ => ⟨rfl, id, rfl, rfl, rfl⟩

theorem keeps_decodeNamed (h : Keeps Kept body) (name : String) :
    Keeps Kept (Keyed.decodeNamed name body) :=
  (looks_require name).keeps.bind fun node => keeps_inside h _ node

theorem keeps_decodeItem (h : Keeps Kept body) : Keeps Kept (Sequential.decode body) :=
  (Looks.read _).keeps.bind fun _ => looks_next.keeps.bind fun node =>
    (keeps_inside h _ node).bind fun x => keeps_advance.bind fun _ => .pure x

theorem keeps_decode (h : Keeps Kept body) (key : String) : Keeps Kept (Keyed.decode key body) :=
  (Looks.read _).keeps.bind (keeps_decodeNamed h)

theorem keeps_nested (h : Keeps Kept body) (inner : Nested) : Keeps Kept (nested body inner) := by
  have hbody (c : Container) : Keeps Kept (do request c; body) := (keeps_request c).bind fun _ => h
  cases inner with
  | keyedField key => exact keeps_decode (hbody .keyed) key
  | listField key => exact keeps_decode (hbody .sequential) key
  | keyedItem => exact keeps_decodeItem (hbody .keyed)
  | listItem => exact keeps_decodeItem (hbody .sequential)

theorem keeps_entry (h : Keeps Kept body) (entry : Entry) : Keeps Kept (entry.run body) := by
  cases entry with
  | field key => exact keeps_decode h key
  | fieldIfPresent key =>
      refine (Looks.read _).keeps.bind fun name => (looks_find name).keeps.bind fun found => ?_
      cases found with
      | none => exact .pure none
      | some node =>
          dsimp only
          split
          next => exact .pure none
          next => exact (keeps_inside h _ node).bind fun x => .pure (some x)
  | named name => exact keeps_decodeNamed h name
  | item => exact keeps_decodeItem h
  | itemIfPresent =>
      refine looks_next.keeps.bind fun node => ?_
      split
      next => exact keeps_advance.bind fun _ => .pure none
      next => exact (keeps_decodeItem h).bind fun x => .pure (some x)
  | whole => exact Looks.get.keeps.bind fun d => keeps_inside h none d.current.node
  | nested inner => exact keeps_nested h inner
  | delegate key => exact (looks_delegateFor key).keeps.bind fun other => keeps_runOn other body

end Keeps

section Runs

variable [Backend S]

theorem Run.keeps {run : Decoding S U α} (h : Run run) : Keeps Kept run := by
  induction h with
  | pure x => exact .pure x
  | bind _ _ ih ih' => exact ih.bind ih'
  | throw e => exact .throw e
  | attempt _ ih => exact ih.attempt
  | op op => exact keeps_op op
  | enter entry _ ih => exact keeps_entry ih entry
  | resume other _ _ => exact keeps_resume other _

omit [Backend S] in
theorem bind_congr_at_path {β : Type} {front : Decoding S U β} (h : Keeps Kept front)
    {next next' : β → Decoding S U α} {path : Path}
    (hnext : ∀ x d, d.path = path → next x d = next' x d) {d : Decoder S U} (hd : d.path = path) :
    (front >>= next) d = (front >>= next') d := by
  have hfront := h d
  cases hrun : front d with
  | ok x d' =>
      rw [hrun] at hfront
      simp only [run_bind, hrun]
      exact hnext x d' (hfront.path.trans hd)
  | error e d' => simp only [run_bind, hrun]

theorem Run.codingPath_congr {β : Type} {front : Decoding S U β} (h : Run front)
    (rest : β → Path → Decoding S U α) {d : Decoder S U} {path : Path} (hd : d.path = path) :
    (do let x ← front; rest x (← codingPath)) d = (do let x ← front; rest x path) d := by
  refine bind_congr_at_path h.keeps (fun x d' hpath => ?_) hd
  show rest x d'.path d' = rest x path d'
  rw [hpath]

namespace Entry

variable {body body' : Decoding S U α} {d : Decoder S U}

omit [Backend S] in
theorem inside_congr {key : Key} {node : S}
    (h : body (d.enter (some key) node) = body' (d.enter (some key) node)) :
    inside (some key) node body d = inside (some key) node body' d := by
  rw [Decoding.inside, Decoding.inside, h]

theorem decodeNamed_congr {name : String}
    (h : ∀ d' : Decoder S U, d'.path = d.path ++ [.name name] → body d' = body' d') :
    Keyed.decodeNamed name body d = Keyed.decodeNamed name body' d :=
  (looks_require name).bind_congr fun _ _ => inside_congr (h _ rfl)

theorem decodeItem_congr
    (h : ∀ d' : Decoder S U, d'.path = d.path ++ [.index d.current.cursor] → body d' = body' d') :
    Sequential.decode body d = Sequential.decode body' d := by
  rw [Sequential.decode, Sequential.decode, run_bind_of_ok (Sequential.run_currentIndex d),
    run_bind_of_ok (Sequential.run_currentIndex d)]
  exact looks_next.bind_congr fun _ _ => run_bind_congr (inside_congr (h _ rfl))

theorem decode_congr {key : String} (h : ∀ d' : Decoder S U,
    d'.path = d.path ++ [.name (d.naming.apply key)] → body d' = body' d') :
    Keyed.decode key body d = Keyed.decode key body' d := by
  have hnamed : Keyed.decodeNamed (d.naming.apply key) body d = Keyed.decodeNamed _ body' d :=
    decodeNamed_congr h
  exact hnamed

theorem nested_congr {inner : Nested}
    (h : ∀ d' : Decoder S U, d'.path = d.path ++ (nested inner).keys d → body d' = body' d') :
    Decoding.nested body inner d = Decoding.nested body' inner d := by
  have hbody (c : Container) (d' : Decoder S U) (hd' : d'.path = d.path ++ (nested inner).keys d) :
      (do request c; body) d' = (do request c; body') d' :=
    bind_congr_at_path (keeps_request c) (fun _ => h) hd'
  cases inner with
  | keyedField key => exact decode_congr (hbody .keyed)
  | listField key => exact decode_congr (hbody .sequential)
  | keyedItem => exact decodeItem_congr (hbody .keyed)
  | listItem => exact decodeItem_congr (hbody .sequential)

theorem request_refused_congr {c c' : Container} {front : Decoding S U β} (h : Run front)
    (rest : β → Bool → Decoding S U α) (d : Decoder S U) :
    (do request c; let x ← front; rest x (← Script.attempt (request c')).toBool) d =
      (do request c; let x ← front; rest x false) d := by
  simp only [run_bind]
  cases hgranted : request c d with
  | error e d' => rfl
  | ok _ d' =>
      dsimp only
      have hkept := h.keeps d'
      cases hfront : front d' with
      | error e d₁ => rfl
      | ok x d₁ =>
          rw [hfront] at hkept
          obtain ⟨e, hrefused⟩ :=
            request_of_claimed c' (hkept.claimed (claimed_of_request hgranted))
          have hafter : request c' d₁ = .error e d₁ := hrefused
          simp only [Script.attempt, hafter]
          rfl

theorem nested_refused (inner : Nested) {front : Decoding S U β} (h : Run front) (c : Container)
    (rest : β → Bool → Decoding S U α) (d : Decoder S U) :
    Decoding.nested (do let x ← front; rest x (← Script.attempt (request c)).toBool) inner d =
      Decoding.nested (do let x ← front; rest x false) inner d := by
  cases inner with
  | keyedField key =>
      exact decode_congr fun d' _ => request_refused_congr (c := .keyed) h rest d'
  | listField key =>
      exact decode_congr fun d' _ => request_refused_congr (c := .sequential) h rest d'
  | keyedItem => exact decodeItem_congr fun d' _ => request_refused_congr (c := .keyed) h rest d'
  | listItem =>
      exact decodeItem_congr fun d' _ => request_refused_congr (c := .sequential) h rest d'

theorem delegateFor_path {key : String} {other : Decoder S U}
    (h : Keyed.delegateFor key d = .ok other d) :
    other.path = d.path ++ [.name (d.naming.apply key)] := by
  rw [Keyed.delegateFor, run_bind_of_ok (Keyed.run_storedName key d)] at h
  obtain ⟨found, d', hfind, h⟩ := run_bind_eq_ok.1 h
  have hlook := looks_find (d.naming.apply key) d
  rw [hfind] at hlook
  obtain rfl : d' = d := hlook
  cases h
  rfl

/-- Of its body an operation sees no more than what it does at the level that is entered, whose path
is that of the current level and the keys behind it. -/
theorem run_congr (entry : Entry)
    (h : ∀ d' : Decoder S U, d'.path = d.path ++ entry.keys d → body d' = body' d') :
    entry.run body d = entry.run body' d := by
  cases entry with
  | field key => exact decode_congr h
  | fieldIfPresent key =>
      show Keyed.decodeOptional key body d = Keyed.decodeOptional key body' d
      rw [Keyed.decodeOptional, Keyed.decodeOptional, run_bind_of_ok (Keyed.run_storedName key d),
        run_bind_of_ok (Keyed.run_storedName key d)]
      refine (looks_find _).bind_congr fun found _ => ?_
      cases found with
      | none => rfl
      | some node =>
          dsimp only
          split
          next => rfl
          next => exact run_bind_congr (inside_congr (h _ rfl))
  | named name => exact decodeNamed_congr h
  | item => exact decodeItem_congr h
  | itemIfPresent =>
      refine looks_next.bind_congr fun node _ => ?_
      split
      next => rfl
      next => exact run_bind_congr (decodeItem_congr h)
  | whole =>
      show inside none d.current.node body d = inside none d.current.node body' d
      rw [Decoding.inside, Decoding.inside, h (d.enter none d.current.node) rfl]
  | nested inner => exact nested_congr h
  | delegate key =>
      refine (looks_delegateFor key).bind_congr fun other hother => ?_
      have hpath := delegateFor_path hother
      rw [runOn, runOn, h { other with user := d.user } hpath]

end Entry

/-- What holds of every decoder of the backend and of every run on it, with bodies nested to any
depth that may fail and have their errors swallowed. -/
structure Disciplined (S U : Type) [Backend S] : Prop where
  /-- The levels and the path come out of a run as they went in, whether it fails or not. -/
  kept : ∀ {α : Type} {run : Decoding S U α}, Run run → ∀ d, Kept d (after (run d))
  /-- Wherever a body asks for the path, it is that of the level around it with the keys entered. -/
  path_inside : ∀ (entry : Entry) {α β : Type} {front : Decoding S U β}, Run front →
    ∀ (rest : β → Path → Decoding S U α) (d : Decoder S U),
      entry.run (do let x ← front; rest x (← codingPath)) d =
        entry.run (do let x ← front; rest x (d.path ++ entry.keys d)) d
  /-- The container of a nested level is asked for before the body, which gets no other one. -/
  refused_inside : ∀ (inner : Nested) {α β : Type} {front : Decoding S U β}, Run front →
    ∀ (c : Container) (rest : β → Bool → Decoding S U α) (d : Decoder S U),
      nested (do let x ← front; rest x (← Script.attempt (request c)).toBool) inner d =
        nested (do let x ← front; rest x false) inner d
  /-- A container is granted where the node has its shape and none was granted before. -/
  granted_iff : ∀ (c : Container) (d : Decoder S U), (∃ d', request c d = .ok () d') ↔
    Offers d.current.node c ∧ d.current.claimed = false
  /-- A refusal uses nothing up. -/
  refused : ∀ {c : Container} {d d' : Decoder S U} {e : Error}, request c d = .error e d' → d' = d
  /-- Once a container was granted, whatever was done since, every other one is refused. -/
  granted_once : ∀ {c : Container} {d d' : Decoder S U}, request c d = .ok () d' →
    ∀ {α : Type} {run : Decoding S U α}, Run run → ∀ c',
      ∃ e, request c' (after (run d')) = .error e (after (run d'))

theorem disciplined (S U : Type) [Backend S] : Disciplined S U where
  kept h := h.keeps
  path_inside entry α β front h rest d := entry.run_congr fun d' hd' => h.codingPath_congr rest hd'
  refused_inside inner α β front h c rest d := Entry.nested_refused inner h c rest d
  granted_iff c d := request_eq_ok_iff
  refused h := eq_of_request_error h
  granted_once {c d d'} h α run hr c' := by
    have hclaimed : (after (run d')).current.claimed = true :=
      (hr.keeps d').claimed (claimed_of_request h)
    exact request_of_claimed c' hclaimed

/-- Around a body that fails at an item of a nested list, with its error swallowed, the level is
where it was, and no other container is granted. Inside, the path is that of the list. -/
theorem disciplined_swallowed :
    let start : Decoder Value Unit := .start (.object [("xs", .array [Value.null])]) [] .identity ()
    let d := after (keyed start)
    let flag : Decoding Value Unit Bool := do single; Single.decodePrimitive .bool
    let swallowed : Decoding Value Unit Bool :=
      return (← Script.attempt (Keyed.nestedSequential "xs" (Sequential.decode flag))).toBool
    Kept d (after (swallowed d)) ∧
      (∃ e, request .single (after (swallowed d)) = .error e (after (swallowed d))) ∧
      Keyed.nestedSequential "xs" codingPath d = .ok [.name "xs"] d := by
  intro start d flag swallowed
  obtain ⟨kept, path_inside, -, -, -, granted_once⟩ := disciplined Value Unit
  have hflag : Run flag := .bind (.op (.request .single)) fun _ => .op (.primitive .bool)
  have hitem : Run (Sequential.decode flag) := .enter .item hflag
  have hswallowed : Run swallowed := (Run.enter (.nested (.listField "xs")) hitem).attempt.map _
  have hgranted : request .keyed start = .ok () d := rfl
  refine ⟨kept hswallowed d, granted_once hgranted hswallowed .single, ?_⟩
  exact path_inside (.nested (.listField "xs")) (.pure ()) (fun _ path => pure path) d

/-- A request of the wrong shape does not use a list up, and the one that is granted does. -/
example : Decoding.run .identity () (Tree.array [] : Value) (do
    let granted (c : Container) : Decoding Value Unit Bool :=
      return (← Script.attempt (request c)).toBool
    return [← granted .keyed, ← granted .sequential, ← granted .single]) =
    (.ok [false, true, false], ()) := rfl

end Runs

end DataTree.Decoding
