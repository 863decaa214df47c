import DataTree.Json
import DataTree.Proofs.Backend.Coherent
import DataTree.Proofs.Effect
import DataTree.Proofs.Encoder.Steps
import DataTree.Proofs.Outcome

namespace DataTree.Encoding

variable {S α β : Type}

/-- The levels around the current one, the path and the policy are the same. -/
structure Kept (e e' : Encoder S Unit) : Prop where
  outer : e'.outer = e.outer
  path : e'.path = e.path
  naming : e'.naming = e.naming

namespace Kept

variable {e e' e'' : Encoder S Unit}

theorem refl (e : Encoder S Unit) : Kept e e := ⟨rfl, rfl, rfl⟩

theorem trans (h : Kept e e') (h' : Kept e' e'') : Kept e e'' :=
  ⟨h'.outer.trans h.outer, h'.path.trans h.path, h'.naming.trans h.naming⟩

instance : Std.Refl (Kept (S := S)) := ⟨refl⟩

instance : Trans (Kept (S := S)) Kept Kept := ⟨trans⟩

theorem leave {key : Option Key} (h : Kept (e.enter key) e') : e'.leave key = e := by
  obtain ⟨houter, hpath, hnaming⟩ := h
  simp only [Encoder.enter_outer, Encoder.enter_path, Encoder.enter_naming] at houter hpath hnaming
  rw [Encoder.leave, houter]
  simp [hpath, hnaming]

end Kept

/-- An encoding that changes at most the current level, and not even that where it fails. -/
structure Traceless (run : Encoding S Unit α) : Prop where
  keeps : Keeps Kept run
  unchanged : ∀ {e e' : Encoder S Unit} {err : Error}, run e = .error err e' → e' = e

theorem looks_inside [Backend S] {body : Encoding S Unit α} (h : Keeps Kept body)
    (key : Option Key) : Looks (inside key body) := by
  intro e
  have hbody := h (e.enter key)
  rw [inside]
  cases hrun : body (e.enter key) with
  | ok x e' =>
      rw [hrun] at hbody
      exact hbody.leave
  | error err e' =>
      rw [hrun] at hbody
      exact hbody.leave

def taken (key : String) (e : Encoder S Unit) : Keyed.Delegate S Unit :=
  ⟨e.naming.apply key, .start (e.path ++ [.name (e.naming.apply key)]) e.naming ()⟩

@[simp] theorem run_delegateFor (key : String) (e : Encoder S Unit) :
    Keyed.delegateFor key e = .ok (taken key e) e := rfl

@[simp] theorem run_count (e : Encoder S Unit) : Sequential.count e = .ok (nextIndex e) e := by
  rw [Sequential.count, run_get_bind, nextIndex]
  cases e.current <;> rfl

theorem looks_count : Looks (Sequential.count : Encoding S Unit Nat) := fun e =>
  congrArg after (run_count e)

theorem looks_runOn (other : Keyed.Delegate S Unit) (body : Encoding S Unit α) :
    Looks (Keyed.runOn other body) := by
  intro e
  rw [Keyed.runOn]
  cases body { other.encoder with user := e.user } <;> rfl

namespace Traceless

theorem pure (x : α) : Traceless (pure x : Encoding S Unit α) := ⟨.pure x, nofun⟩

theorem throw (err : Error) : Traceless (throw err : Encoding S Unit α) := by
  refine ⟨.throw err, fun hrun => ?_⟩
  cases hrun
  rfl

theorem behind {first : Encoding S Unit α} {next : α → Encoding S Unit β} (h : Looks first)
    (h' : ∀ x, Traceless (next x)) : Traceless (first >>= next) := by
  refine ⟨h.keeps.bind fun x => (h' x).keeps, ?_⟩
  intro e e' err hrun
  have hfirst := h e
  rw [run_bind] at hrun
  cases hx : first e with
  | ok x e'' =>
      rw [hx] at hrun hfirst
      obtain rfl : e'' = e := hfirst
      exact (h' x).unchanged hrun
  | error err' e'' =>
      rw [hx] at hrun hfirst
      cases hrun
      exact hfirst

theorem andReturn {run : Encoding S Unit α} (h : Traceless run) (x : β) :
    Traceless (do let _ ← run; return x) := by
  refine ⟨h.keeps.bind fun _ => .pure x, fun {e e' err} hrun => ?_⟩
  rw [run_bind] at hrun
  cases hx : run e with
  | ok y e'' =>
      rw [hx] at hrun
      cases hrun
  | error err' e'' =>
      rw [hx] at hrun
      cases hrun
      exact h.unchanged hx

theorem claim (c : Container) (draft : Encoder.Draft S) : Traceless (claim c draft) := by
  constructor
  · intro e
    rw [Encoding.claim]
    split <;> exact ⟨rfl, rfl, rfl⟩
  · intro e e' err hrun
    rw [Encoding.claim] at hrun
    split at hrun
    next => cases hrun
    next =>
      cases hrun
      rfl

theorem store (node : S) : Traceless (Single.store node) := by
  constructor
  · intro e
    rw [Single.store]
    split <;> exact ⟨rfl, rfl, rfl⟩
  · intro e e' err hrun
    rw [Single.store] at hrun
    split at hrun
    next => cases hrun
    next =>
      cases hrun
      rfl
    next =>
      cases hrun
      rfl

section Backends

variable [Backend S]

theorem request (c : Container) : Traceless (request c : Encoding S Unit Unit) := by
  cases c <;> exact claim _ _

theorem encodePrimitive (p : Primitive) (x : p.Carrier) :
    Traceless (Single.encodePrimitive p x : Encoding S Unit Unit) := by
  rw [Single.encodePrimitive]
  split
  next => exact store _
  next fault _ => exact ⟨fun e => .refl e, fun hrun => by cases hrun; rfl⟩

theorem encodeTree (v : Value) : Traceless (Single.encodeTree v : Encoding S Unit Unit) := by
  cases hnode : (ofValue v : Except Error S) with
  | ok node =>
      have hstore : (Single.encodeTree v : Encoding S Unit Unit) = Single.store node := by
        funext e
        rw [Single.encodeTree, hnode]
      exact hstore ▸ store node
  | error err =>
      constructor
      · intro e
        rw [Single.encodeTree, hnode]
        exact .refl e
      · intro e e' err' hrun
        rw [Single.encodeTree, hnode] at hrun
        cases hrun
        rfl

variable [CoherentBackend S]

theorem insert (name : String) (node : S) : Traceless (Keyed.insert name node) := by
  constructor
  · intro e
    rw [Keyed.insert]
    split
    next =>
      split <;> exact ⟨rfl, rfl, rfl⟩
    next => exact .refl e
  · intro e e' err hrun
    rw [Keyed.insert] at hrun
    split at hrun
    next object hobject =>
      split at hrun
      next => cases hrun
      next hinsert =>
        cases hrun
        rw [LawfulBackend.insertField_error hinsert, ← hobject]
    next =>
      cases hrun
      rfl

theorem push (index : Nat) (node : S) : Traceless (Sequential.push index node) := by
  constructor
  · intro e
    rw [Sequential.push]
    split
    next =>
      split <;> exact ⟨rfl, rfl, rfl⟩
    next => exact .refl e
  · intro e e' err hrun
    rw [Sequential.push] at hrun
    split at hrun
    next array n harray =>
      split at hrun
      next => cases hrun
      next hpush =>
        cases hrun
        rw [CoherentBackend.pushItem_error hpush, ← harray]
    next =>
      cases hrun
      rfl

theorem encodeNamed {body : Encoding S Unit Unit} (h : Keeps Kept body) (name : String) :
    Traceless (Keyed.encodeNamed name body) :=
  behind (looks_inside h _) fun (x, node) => (insert name node).andReturn x

theorem encode {body : Encoding S Unit Unit} (h : Keeps Kept body) (place : Place) :
    Traceless (place.encode body) := by
  cases place with
  | field key => exact behind (fun _ => rfl) fun name => encodeNamed h name
  | named name => exact encodeNamed h name
  | item =>
      refine behind looks_count fun index => ?_
      exact behind (looks_inside h _) fun (x, node) => (push index node).andReturn x
  | whole => exact behind (looks_inside h none) fun (_, node) => store node

theorem encodeOptional {body : Encoding S Unit Unit} (h : Keeps Kept body) (key : String) :
    Traceless (Keyed.encodeOptional key (some body)) := encode h (.field key)

theorem nested {body : Encoding S Unit Unit} (h : Keeps Kept body) (inner : Nested) :
    Traceless (nested body inner) := by
  rw [nested_eq]
  exact encode ((request inner.container).keeps.bind fun _ => h) _

theorem encodeNil (place : Place) : Traceless (place.encodeNil : Encoding S Unit Unit) := by
  cases place with
  | field key => exact behind (fun _ => rfl) fun name => insert name _
  | named name => exact insert name _
  | item => exact behind looks_count fun index => push index _
  | whole => exact store _

end Backends

end Traceless

section Steps

variable [Backend S]

mutual

theorem Step.traceless [CoherentBackend S] :
    (step : Step) → Traceless (step.run : Encoding S Unit Unit)
  | .request c => .request c
  | .encode place body => .encode (keeps_runSteps body) place
  | .encodeOptional _ none => .pure ()
  | .encodeOptional key (some body) => .encodeOptional (keeps_runSteps body) key
  | .nested inner body => .nested (keeps_runSteps body) inner
  | .encodeNil place => .encodeNil place
  | .encodePrimitive p x => .encodePrimitive p x
  | .encodeText _ => .store _
  | .encodeTree v => .encodeTree v
  | .finish _ _ _ _ =>
      .behind (looks_runOn _ _) fun (_, delegate) => .insert delegate.name _
  | .fail e => .throw e

theorem keeps_runSteps [CoherentBackend S] :
    (steps : List (Bool × Step)) → Keeps Kept (runSteps steps : Encoding S Unit Unit)
  | [] => .pure ()
  | (tried, step) :: rest => by
      refine step.traceless.keeps.attempt.bind fun outcome => ?_
      cases outcome with
      | ok _ => exact keeps_runSteps rest
      | error err =>
          dsimp only
          split
          next => exact keeps_runSteps rest
          next => exact .throw err

end

section Trimming

theorem inside_congr {key : Option Key} {body body' : Encoding S Unit α} {e : Encoder S Unit}
    (h : body (e.enter key) = body' (e.enter key)) : inside key body e = inside key body' e := by
  rw [inside, inside, h]

theorem encodeField_congr {key : String} {body body' : Encoding S Unit Unit} {e : Encoder S Unit}
    (h : body (e.enter ((Place.field key).key e)) = body' (e.enter ((Place.field key).key e))) :
    Keyed.encode key body e = Keyed.encode key body' e := by
  have hinside : inside (some (.name (e.naming.apply key))) body e = inside _ body' e :=
    inside_congr h
  simp [Keyed.encode, Keyed.encodeNamed, hinside]

theorem Place.encode_congr {place : Place} {body body' : Encoding S Unit Unit} {e : Encoder S Unit}
    (h : body (e.enter (place.key e)) = body' (e.enter (place.key e))) :
    place.encode body e = place.encode body' e := by
  cases place with
  | field key => exact encodeField_congr h
  | named name => exact run_bind_congr (inside_congr h)
  | item =>
      have hinside : inside (some (.index (nextIndex e))) body e = inside _ body' e :=
        inside_congr h
      simp [Place.encode, Sequential.encode, hinside]
  | whole => exact run_bind_congr (inside_congr h)

@[simp] theorem request_enter (c : Container) (key : Option Key) (e : Encoder S Unit) :
    request c (e.enter key) = .ok () { e.enter key with current := opened c } := by
  cases c <;> rfl

theorem nested_congr {inner : Nested} {body body' : Encoding S Unit Unit} {e : Encoder S Unit}
    (h : body (within inner e) = body' (within inner e)) :
    nested body inner e = nested body' inner e := by
  rw [nested_eq, nested_eq]
  refine Place.encode_congr ?_
  simp only [run_bind, request_enter]
  exact h

omit [Backend S] in
theorem runOn_congr {other : Keyed.Delegate S Unit} {body body' : Encoding S Unit α}
    {e : Encoder S Unit} (h : body other.encoder = body' other.encoder) :
    Keyed.runOn other body e = Keyed.runOn other body' e := by
  have hsame : { other.encoder with user := e.user } = other.encoder := rfl
  rw [Keyed.runOn, Keyed.runOn, hsame, h]

theorem runSteps_cons (tried : Bool) (step : Step) (rest : List (Bool × Step))
    (e : Encoder S Unit) : runSteps ((tried, step) :: rest) e = match step.run e with
      | .ok () e' => runSteps rest e'
      | .error err e' => if tried then runSteps rest e' else .error err e' := by
  simp only [runSteps, run_bind, Script.attempt]
  cases step.run e with
  | ok _ e' => rfl
  | error err e' => cases tried <;> rfl

mutual

theorem Step.run_trim [CoherentBackend S] (e : Encoder S Unit) :
    (step : Step) → (step.trim e).run e = step.run e
  | .encode _ body => Place.encode_congr (runSteps_trimSteps _ body)
  | .encodeOptional _ (some body) => encodeField_congr (runSteps_trimSteps _ body)
  | .nested _ body => nested_congr (runSteps_trimSteps _ body)
  | .finish _ _ _ body => run_bind_congr (runOn_congr (runSteps_trimSteps _ body))
  | .request _ | .encodeOptional _ none | .encodeNil _ | .encodePrimitive _ _ | .encodeText _
  | .encodeTree _ | .fail _ => rfl

theorem runSteps_trimSteps [CoherentBackend S] (e : Encoder S Unit) :
    (steps : List (Bool × Step)) → runSteps (trimSteps e steps) e = runSteps steps e
  | [] => rfl
  | (tried, step) :: rest => by
      rw [runSteps_cons, trimSteps]
      cases hrun : step.run e with
      | ok _ e' =>
          dsimp only
          rw [runSteps_cons, step.run_trim e, hrun]
          exact runSteps_trimSteps e' rest
      | error err e' =>
          cases tried with
          | true =>
              obtain rfl : e' = e := step.traceless.unchanged hrun
              exact runSteps_trimSteps e' rest
          | false =>
              dsimp only [Bool.false_eq_true, if_false]
              rw [if_neg Bool.false_ne_true, runSteps_cons, step.run_trim e, hrun]

end

mutual

theorem Step.clean_trim [CoherentBackend S] (e : Encoder S Unit) :
    (step : Step) → (step.trim e).Clean e
  | .encode _ body | .encodeOptional _ (some body) | .nested _ body => cleanSteps_trimSteps _ body
  | .finish _ _ _ body => cleanSteps_trimSteps _ body
  | .request _ | .encodeOptional _ none | .encodeNil _ | .encodePrimitive _ _ | .encodeText _
  | .encodeTree _ | .fail _ => trivial

theorem cleanSteps_trimSteps [CoherentBackend S] (e : Encoder S Unit) :
    (steps : List (Bool × Step)) → CleanSteps e (trimSteps e steps)
  | [] => trivial
  | (tried, step) :: rest => by
      rw [trimSteps]
      cases hrun : step.run e with
      | ok _ e' =>
          refine ⟨step.clean_trim e, ?_⟩
          rw [step.run_trim e, hrun]
          exact cleanSteps_trimSteps e' rest
      | error err e' =>
          cases tried with
          | true =>
              obtain rfl : e' = e := step.traceless.unchanged hrun
              exact cleanSteps_trimSteps e' rest
          | false =>
              refine ⟨step.clean_trim e, ?_⟩
              rw [step.run_trim e, hrun]

end

end Trimming

end Steps

/-- What holds of every run on an encoder of the backend, with bodies nested to any depth. -/
structure LeavesNoTrace (S : Type) [Backend S] : Prop where
  /-- Encoding a value takes steps, whatever its type is made of. -/
  typed : ∀ {D : Empty → Type} (own : (y : Empty) → D y → Encoding S Unit Unit)
    (t : Codable Empty) (x : t.Carrier D), runSteps (t.steps x) = t.encode own x
  /-- So does a delegate, with all that is done between taking and finishing it. -/
  delegates : ∀ (key : String) (body : List (Bool × Step)) (e : Encoder S Unit),
    (do
      let (_, delegate) ← Keyed.runOn (← Keyed.delegateFor key) (runSteps body)
      Keyed.finish delegate : Encoding S Unit Unit) e =
    let name := e.naming.apply key
    (Step.finish name (e.path ++ [.name name]) e.naming body).run e
  /-- After a step that failed, the encoder is what it was, with all that is open in it. -/
  unchanged : ∀ (step : Step) {e e' : Encoder S Unit} {err : Error},
    step.run e = .error err e' → e' = e
  /-- Without the failed steps whose errors were swallowed, the outcome is the same. -/
  same_outcome : ∀ (steps : List (Bool × Step)) (naming : Naming),
    Encoding.run naming () (runSteps (trimSteps (.start [] naming () : Encoder S Unit) steps)) =
      (Encoding.run naming () (runSteps steps) : Except Error S × Unit)
  /-- No such step is left, at any depth. -/
  clean : ∀ (steps : List (Bool × Step)) (e : Encoder S Unit), CleanSteps e (trimSteps e steps)

theorem leavesNoTrace [Backend S] [CoherentBackend S] : LeavesNoTrace S where
  typed own t x := t.runSteps_steps own x
  delegates := delegate_eq_run
  unchanged step := step.traceless.unchanged
  same_outcome steps naming := by
    rw [Encoding.run, Encoding.run, runSteps_trimSteps]
  clean steps e := cleanSteps_trimSteps e steps

/-- On every backend a failed step leaves no trace: what was encoded is what would have been without
it. -/
theorem failed_steps_traceless :
    LeavesNoTrace Value ∧ LeavesNoTrace Json ∧ LeavesNoTrace Xml.Node :=
  ⟨leavesNoTrace, leavesNoTrace, leavesNoTrace⟩

/-- A list that was begun under a field, with an item in it, is left out when it fails. -/
theorem failed_steps_traceless_list :
    let broken : Step := .nested (.listField "a") [(false, .encodeNil .item),
      (false, .fail (.custom "no more"))]
    let rest : List (Bool × Step) := [(false, .encodeNil (.field "b"))]
    let e : Encoder Value Unit :=
      { Encoder.start [] .identity () with current := .keyed (.object []) }
    (∃ err, broken.run e = .error err e) ∧
      Encoding.run .identity () (runSteps ((false, .request .keyed) :: rest)) =
        (Encoding.run .identity () (runSteps ((false, .request .keyed) :: (true, broken) :: rest)) :
          Except Error Value × Unit) := by
  intro broken rest e
  obtain ⟨⟨-, -, unchanged, same_outcome, -⟩, -, -⟩ := failed_steps_traceless
  refine ⟨?_, same_outcome ((false, .request .keyed) :: (true, broken) :: rest) .identity⟩
  obtain ⟨err, e', h⟩ : ∃ err e', broken.run e = .error err e' := ⟨_, _, rfl⟩
  obtain rfl : e' = e := unchanged broken h
  exact ⟨err, h⟩

/-- A list that was begun under a field is left out with all that was written to it. -/
example : trimSteps (.start [] .identity () : Encoder Value Unit)
    [(false, .request .keyed),
      (true, .encode (.field "a") [(false, .request .sequential), (false, .encodeNil .item),
        (false, .fail (.custom "no more"))]),
      (false, .encodeNil (.field "b"))] =
    [(false, .request .keyed), (false, .encodeNil (.field "b"))] := rfl

end DataTree.Encoding
