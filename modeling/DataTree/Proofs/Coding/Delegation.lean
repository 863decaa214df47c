import DataTree.Proofs.Backend.Fieldwise
import DataTree.Proofs.Coding.Decoded
import DataTree.Proofs.Coding.Encoded
import DataTree.Proofs.Decoder.Discipline
import DataTree.Proofs.Encoder.Standalone

namespace DataTree.Encoding

open Backend (HoldsFields SameBut)

variable {S : Type}

def holding (e : Encoder S Unit) (object : S) : Encoder S Unit :=
  { e with current := .keyed object }

@[simp] theorem holding_naming (e : Encoder S Unit) (object : S) :
    (holding e object).naming = e.naming := rfl

def Place.field? (naming : Naming) : Place → Option String
  | field key => some (naming.apply key)
  | named name => some name
  | item | whole => none

/-- The name of the field that a step writes to an object. -/
def Step.field? (naming : Naming) : Step → Option String
  | .encode place _ | .encodeNil place => place.field? naming
  | .encodeOptional key (some _) => (Place.field key).field? naming
  | .nested inner _ => (Place.ofNested inner).field? naming
  | .finish name _ _ _ => some name
  | _ => none

section Steps

variable [Backend S] [CoherentBackend S]

theorem inside_holding (key : Option Key) (body : List (Bool × Step)) (e : Encoder S Unit) :
    (∃ node, ∀ object, inside key (runSteps body) (holding e object) =
      .ok ((), node) (holding e object)) ∨
    ∃ err, ∀ object, inside key (runSteps body) (holding e object) =
      .error err (holding e object) := by
  have hblind := blind_runSteps (S := S) body
  have hkeeps := keeps_runSteps (S := S) body
  cases hbody : runSteps body (.start (e.path ++ key.toList) e.naming () : Encoder S Unit) with
  | ok x e' => exact .inl ⟨e'.current.node, fun object => inside_of_ok hblind hkeeps hbody⟩
  | error err e' =>
      exact .inr ⟨err.orAt (e.path ++ key.toList), fun object =>
        inside_of_error hblind hkeeps hbody⟩

theorem encodeNamed_holding (name : String) (body : List (Bool × Step)) (e : Encoder S Unit) :
    (∃ node, ∀ object, Keyed.encodeNamed name (runSteps body) (holding e object) =
      Keyed.insert name node (holding e object)) ∨
    ∃ err, ∀ object, Keyed.encodeNamed name (runSteps body) (holding e object) =
      .error err (holding e object) := by
  rcases inside_holding (S := S) (some (.name name)) body e with ⟨node, hinside⟩ | ⟨err, hinside⟩
  · exact .inl ⟨node, fun object => by simp [Keyed.encodeNamed, hinside]⟩
  · exact .inr ⟨err, fun object => by simp [Keyed.encodeNamed, hinside]⟩

omit [Backend S] [CoherentBackend S] in
theorem store_holding (node : S) (e : Encoder S Unit) (object : S) :
    Single.store node (holding e object) =
      .error ⟨Container.single.closed, e.path ++ []⟩ (holding e object) := rfl

omit [CoherentBackend S] in
theorem push_holding (index : Nat) (node : S) (e : Encoder S Unit) (object : S) :
    Sequential.push index node (holding e object) =
      .error ⟨Container.sequential.closed, e.path ++ [.index index]⟩ (holding e object) := rfl

theorem encode_closed (place : Place) (body : List (Bool × Step)) (e : Encoder S Unit)
    (hplace : place = .item ∨ place = .whole) : ∃ err, ∀ object : S,
      place.encode (runSteps body) (holding e object) = .error err (holding e object) := by
  rcases hplace with rfl | rfl
  · have hindex (object : S) : nextIndex (holding e object) = 0 := rfl
    rcases inside_holding (S := S) (some (.index 0)) body e with ⟨node, hinside⟩ | ⟨err, hinside⟩
    · refine ⟨⟨Container.sequential.closed, e.path ++ [.index 0]⟩, fun object => ?_⟩
      simp [Place.encode, Sequential.encode, hindex, hinside, push_holding]
    · exact ⟨err, fun object => by simp [Place.encode, Sequential.encode, hindex, hinside]⟩
  · rcases inside_holding (S := S) none body e with ⟨node, hinside⟩ | ⟨err, hinside⟩
    · refine ⟨⟨Container.single.closed, e.path⟩, fun object => ?_⟩
      simp [Place.encode, Single.encode, hinside, store_holding]
    · exact ⟨err, fun object => by simp [Place.encode, Single.encode, hinside]⟩

theorem Place.encode_holding (place : Place) (body : List (Bool × Step)) (e : Encoder S Unit) :
    (∃ name node, place.field? e.naming = some name ∧ ∀ object,
      place.encode (runSteps body) (holding e object) = Keyed.insert name node (holding e object)) ∨
    ∃ err, ∀ object : S,
      place.encode (runSteps body) (holding e object) = .error err (holding e object) := by
  cases place with
  | field key =>
      exact (encodeNamed_holding (e.naming.apply key) body e).imp_left
        fun ⟨node, h⟩ => ⟨_, node, rfl, h⟩
  | named name =>
      exact (encodeNamed_holding name body e).imp_left fun ⟨node, h⟩ => ⟨_, node, rfl, h⟩
  | item => exact .inr (encode_closed .item body e (.inl rfl))
  | whole => exact .inr (encode_closed .whole body e (.inr rfl))

/-- At an open object a step inserts one field, or it fails, or it does nothing; which of the three,
and with what, does not depend on what the object holds. -/
theorem Step.run_holding (step : Step) (e : Encoder S Unit) :
    (∃ name node, step.field? e.naming = some name ∧ ∀ object,
      step.run (holding e object) = Keyed.insert name node (holding e object)) ∨
    (∃ err, ∀ object : S, step.run (holding e object) = .error err (holding e object)) ∨
    ∀ object : S, step.run (holding e object) = .ok () (holding e object) := by
  cases step with
  | request c =>
      refine .inr (.inl ⟨⟨c.refused, e.path ++ []⟩, fun object => ?_⟩)
      cases c <;> rfl
  | encode place body => exact (place.encode_holding body e).imp_right .inl
  | encodeOptional key body =>
      cases body with
      | none => exact .inr (.inr fun _ => rfl)
      | some body => exact ((Place.field key).encode_holding body e).imp_right .inl
  | nested inner body =>
      have hrun : (Step.nested inner body).run (S := S) =
          (Place.ofNested inner).encode (runSteps ((false, .request inner.container) :: body)) := by
        rw [runSteps_untried]
        exact nested_eq (runSteps body) inner
      rw [hrun]
      exact ((Place.ofNested inner).encode_holding _ e).imp_right .inl
  | encodeNil place =>
      cases place with
      | field key => exact .inl ⟨_, _, rfl, fun _ => rfl⟩
      | named name => exact .inl ⟨_, _, rfl, fun _ => rfl⟩
      | item => exact .inr (.inl ⟨_, push_holding 0 Backend.null e⟩)
      | whole => exact .inr (.inl ⟨_, store_holding Backend.null e⟩)
  | encodePrimitive p x =>
      refine .inr (.inl ?_)
      simp only [Step.run, Single.encodePrimitive]
      cases (writeLeaf p x : Except Fault S) with
      | ok node => exact ⟨_, store_holding node e⟩
      | error fault => exact ⟨⟨fault, e.path ++ []⟩, fun _ => rfl⟩
  | encodeText s => exact .inr (.inl ⟨_, store_holding (Backend.string s) e⟩)
  | encodeTree v =>
      refine .inr (.inl ?_)
      simp only [Step.run, Single.encodeTree]
      cases (ofValue v : Except Error S) with
      | ok node => exact ⟨_, store_holding node e⟩
      | error err => exact ⟨err.within e.path, fun _ => rfl⟩
  | finish name path naming body =>
      cases hbody : runSteps body (.start path naming () : Encoder S Unit) with
      | ok _ e' | error _ e' =>
          refine .inl ⟨name, e'.current.node, rfl, fun object => ?_⟩
          have hrun := runOn_eq ⟨name, .start path naming ()⟩ (runSteps body) (holding e object)
          rw [hbody] at hrun
          exact run_bind_of_ok hrun
  | fail err => exact .inr (.inl ⟨err, fun _ => rfl⟩)

/-- The same outcome twice, with objects that are related. -/
inductive Parallel (e : Encoder S Unit) (r : S → S → Prop) :
    EStateM.Result Error (Encoder S Unit) Unit → EStateM.Result Error (Encoder S Unit) Unit → Prop
  | ok {a b : S} : r a b → Parallel e r (.ok () (holding e a)) (.ok () (holding e b))
  | error {err : Error} {a b : S} : r a b →
      Parallel e r (.error err (holding e a)) (.error err (holding e b))

omit [CoherentBackend S] in
theorem insert_holding {name : String} {node object object' : S}
    (h : Backend.insertField name node object = .ok () object') (e : Encoder S Unit) :
    Keyed.insert name node (holding e object) = .ok () (holding e object') := by
  simp only [Keyed.insert, holding, h]

theorem runSteps_parallel {e : Encoder S Unit} {r : S → S → Prop} {p : String → Prop}
    (hr : ∀ {a b : S} {name : String} (node : S), p name → r a b → ∃ a' b',
      Backend.insertField name node a = .ok () a' ∧ Backend.insertField name node b = .ok () b' ∧
        r a' b')
    {steps : List (Bool × Step)}
    (hsteps : ∀ entry ∈ steps, ∀ name, entry.2.field? e.naming = some name → p name)
    {a b : S} (hab : r a b) :
    Parallel e r (runSteps steps (holding e a)) (runSteps steps (holding e b)) := by
  induction steps generalizing a b with
  | nil => exact .ok hab
  | cons entry rest ih =>
      obtain ⟨tried, step⟩ := entry
      obtain ⟨hfirst, hrest⟩ := List.forall_mem_cons.1 hsteps
      rw [runSteps_cons, runSteps_cons]
      rcases step.run_holding e with ⟨name, node, hname, hrun⟩ | ⟨err, hrun⟩ | hrun
      · obtain ⟨a', b', ha, hb, hab'⟩ := hr node (hfirst name hname) hab
        rw [hrun a, hrun b, insert_holding ha, insert_holding hb]
        exact ih hrest hab'
      · rw [hrun a, hrun b]
        cases tried with
        | true => exact ih hrest hab
        | false => exact .error hab
      · rw [hrun a, hrun b]
        exact ih hrest hab

omit [Backend S] [CoherentBackend S] in
theorem Parallel.left {e : Encoder S Unit} {r : S → S → Prop}
    {x y : EStateM.Result Error (Encoder S Unit) Unit} (h : Parallel e r x y) :
    ∃ a b, r a b ∧ (x = .ok () (holding e a) ∨ ∃ err, x = .error err (holding e a)) := by
  cases h with
  | ok hab => exact ⟨_, _, hab, .inl rfl⟩
  | error hab => exact ⟨_, _, hab, .inr ⟨_, rfl⟩⟩

theorem runSteps_holding {object : S} (h : HoldsFields object) (steps : List (Bool × Step))
    (e : Encoder S Unit) : ∃ object', HoldsFields object' ∧
      (runSteps steps (holding e object) = .ok () (holding e object') ∨
        ∃ err, runSteps steps (holding e object) = .error err (holding e object')) := by
  have hparallel : Parallel e (fun a b => a = b ∧ HoldsFields a) (runSteps steps (holding e object))
      (runSteps steps (holding e object)) := by
    refine runSteps_parallel (p := fun _ => True) ?_ (fun _ _ _ _ => trivial) ⟨rfl, h⟩
    rintro a b name node - ⟨rfl, ha⟩
    obtain ⟨a', ha', hholds⟩ := LawfulBackend.insertField_ok ha name node
    exact ⟨a', a', ha', ha', rfl, hholds⟩
  obtain ⟨object', -, ⟨rfl, hholds⟩, hresult⟩ := hparallel.left
  exact ⟨object', hholds, hresult⟩

end Steps

section Apart

variable [Backend S] [FieldwiseBackend S]

/-- Two objects of which the second one has a field that the first one is still to get, and which
are the same otherwise. -/
structure Awaits (name : String) (node a b : S) : Prop where
  inserted : ∃ a', Backend.insertField name node a = .ok () a' ∧ SameBut name a' b
  left : HoldsFields a
  right : HoldsFields b

theorem Awaits.insertField {name other : String} {node a b : S} (h : Awaits name node a b)
    (hne : other ≠ name) (child : S) : ∃ a' b', Backend.insertField other child a = .ok () a' ∧
      Backend.insertField other child b = .ok () b' ∧ Awaits name node a' b' := by
  obtain ⟨⟨full, hfull, hsame⟩, ha, hb⟩ := h
  obtain ⟨a', ha', hleft⟩ := LawfulBackend.insertField_ok ha other child
  obtain ⟨b', hb', hright⟩ := LawfulBackend.insertField_ok hb other child
  obtain ⟨found, rest, hrest, -⟩ := LawfulBackend.removeField_ok hb name
  refine ⟨a', b', ha', hb', ⟨?_, hleft, hright⟩⟩
  obtain ⟨last, hlast, -⟩ := LawfulBackend.insertField_ok hleft name node
  have hholds : HoldsFields full := by
    obtain ⟨full', hfull', hholds⟩ := LawfulBackend.insertField_ok ha name node
    cases hfull.symm.trans hfull'
    exact hholds
  obtain ⟨full', hfull', -⟩ := LawfulBackend.insertField_ok hholds other child
  -- with the field taken out, the other one goes into the same object on both sides
  have hswap : SameBut name full' last :=
    FieldwiseBackend.insertField_swap hne hfull hfull' ha' hlast
  obtain ⟨rest', hinsert, hremove⟩ :=
    FieldwiseBackend.removeField_insertField hne (Eq.trans hsame hrest) hfull'
  obtain ⟨rest'', hinsert', hremove'⟩ :=
    FieldwiseBackend.removeField_insertField hne hrest hb'
  cases hinsert.symm.trans hinsert'
  exact ⟨last, hlast, hswap.symm.trans (hremove.trans hremove'.symm)⟩

end Apart

section Delegates

variable [Backend S]

/-- The content is encoded through a delegate, with other steps before it is, and between that and
the end of the delegate. -/
def delegated (key : String) (content : Encoding S Unit Unit)
    (before between : List (Bool × Step)) : Encoding S Unit Unit := do
  let delegate ← Keyed.delegateFor key
  runSteps before
  let (outcome, delegate) ← Keyed.runOn delegate content
  MonadExcept.ofExcept outcome
  runSteps between
  Keyed.finish delegate

def direct (key : String) (content : Encoding S Unit Unit)
    (before between : List (Bool × Step)) : Encoding S Unit Unit := do
  runSteps before
  Keyed.encode key content
  runSteps between

/-- The same object but for the place of one field, or the same error. -/
inductive SameOutcome (e : Encoder S Unit) (name : String) :
    EStateM.Result Error (Encoder S Unit) Unit → EStateM.Result Error (Encoder S Unit) Unit → Prop
  | ok {a b : S} : SameBut name a b → (∀ other, Backend.field a other = Backend.field b other) →
      SameOutcome e name (.ok () (holding e a)) (.ok () (holding e b))
  | error {err : Error} {e₁ e₂ : Encoder S Unit} :
      SameOutcome e name (.error err e₁) (.error err e₂)

variable {key : String} {content : Encoding S Unit Unit} {before between : List (Bool × Step)}
  {e e' : Encoder S Unit}

theorem delegated_of_error {err : Error} (h : runSteps before e = .error err e') :
    delegated key content before between e = .error err e' := by
  simp [delegated, h]

theorem delegated_of_ok (h : runSteps before e = .ok () e') :
    delegated key content before between e = (do
      let (outcome, delegate) ← Keyed.runOn (taken key e) content
      MonadExcept.ofExcept outcome
      runSteps between
      Keyed.finish delegate : Encoding S Unit Unit) e' := by
  simp [delegated, h]

theorem delegated_of_failing {err : Error} (h : runSteps before e = .ok () e')
    (hmakes : content.Makes (.error err)) : delegated key content before between e =
      .error (err.within (e.path ++ [.name (e.naming.apply key)])) e' := by
  obtain ⟨finish, -, hturns⟩ := hmakes
  obtain ⟨last, hrun⟩ := hturns (taken key e).encoder rfl
  have hon := runOn_eq (taken key e) content e'
  rw [hrun] at hon
  simp [delegated_of_ok h, hon]
  rfl

theorem delegated_of_making {node : S} (h : runSteps before e = .ok () e')
    (hmakes : content.Makes (.ok node)) : delegated key content before between e =
      (do runSteps between; Keyed.insert (e.naming.apply key) node) e' := by
  obtain ⟨finish, hfinish, hturns⟩ := hmakes
  have hon := runOn_eq (taken key e) content e'
  rw [hturns (taken key e).encoder rfl] at hon
  have hnode : (finish node).node = node := by
    rw [Encoder.Draft.node, hfinish]
    rfl
  rw [delegated_of_ok h, run_bind_of_ok hon]
  show (do runSteps between; Keyed.insert (e.naming.apply key) (finish node).node) e' = _
  rw [hnode]

theorem encode_of_failing {err : Error} (hmakes : content.Makes (.error err)) :
    Keyed.encode key content e =
      .error (err.within (e.path ++ [.name (e.naming.apply key)])) e := by
  simp [Keyed.encode, Keyed.encodeNamed, hmakes.inside_error]

theorem encode_of_making {node : S} (hmakes : content.Makes (.ok node)) :
    Keyed.encode key content e = Keyed.insert (e.naming.apply key) node e := by
  simp [Keyed.encode, Keyed.encodeNamed, hmakes.inside_ok]

variable [FieldwiseBackend S] {outcome : Except Error S} {object : S}

/-- What is written between taking a delegate and finishing it goes in front of its field, and that
is all the difference to encoding the field at once. -/
theorem delegated_direct (hobject : HoldsFields object) (hmakes : content.Makes outcome)
    (hbetween : ∀ entry ∈ between, entry.2.field? e.naming ≠ some (e.naming.apply key)) :
    SameOutcome e (e.naming.apply key) (delegated key content before between (holding e object))
      (direct key content before between (holding e object)) := by
  obtain ⟨o, ho, hbefore | ⟨err, hbefore⟩⟩ := runSteps_holding hobject before e
  · cases outcome with
    | error err =>
        simp only [delegated_of_failing hbefore hmakes, direct, run_bind, hbefore,
          encode_of_failing hmakes]
        exact .error
    | ok node =>
        obtain ⟨full, hfull, hholds⟩ := LawfulBackend.insertField_ok ho (e.naming.apply key) node
        have hencode : Keyed.encode key content (holding e o) = .ok () (holding e full) :=
          (encode_of_making hmakes).trans (insert_holding hfull e)
        have hparallel : Parallel e (Awaits (e.naming.apply key) node)
            (runSteps between (holding e o)) (runSteps between (holding e full)) := by
          refine runSteps_parallel (p := fun name => name ≠ e.naming.apply key)
            (fun child hne h => h.insertField hne child) ?_ ⟨⟨full, hfull, rfl⟩, ho, hholds⟩
          rintro entry hentry name hname rfl
          exact hbetween entry hentry hname
        simp only [delegated_of_making hbefore hmakes, direct, run_bind, hbefore, hencode]
        generalize hx : runSteps between (holding e o) = x at hparallel
        generalize runSteps between (holding e full) = y at hparallel ⊢
        cases hparallel with
        | @ok a b hab =>
            obtain ⟨⟨last, hlast, hsame⟩, -, hb⟩ := hab
            simp only [holding_naming, insert_holding hlast e]
            exact .ok hsame (hsame.field_eq hb)
        | error _ => exact .error
  · simp only [delegated_of_error hbefore, direct, run_bind, hbefore]
    exact .error

theorem delegated_eq_ok_iff (hobject : HoldsFields object) (hmakes : content.Makes outcome) :
    delegated key content before between (holding e object) = .ok () e' ↔
      (do runSteps before; runSteps between; Keyed.encode key content) (holding e object) =
        .ok () e' := by
  obtain ⟨o, ho, hbefore | ⟨err, hbefore⟩⟩ := runSteps_holding hobject before e
  · cases outcome with
    | error err =>
        obtain ⟨o₁, -, hrun | ⟨err, hrun⟩⟩ := runSteps_holding ho between e
        · simp [delegated_of_failing hbefore hmakes, hbefore, hrun, encode_of_failing hmakes]
        · simp [delegated_of_failing hbefore hmakes, hbefore, hrun]
    | ok node =>
        obtain ⟨o₁, -, hrun | ⟨err, hrun⟩⟩ := runSteps_holding ho between e
        · simp [delegated_of_making hbefore hmakes, hbefore, hrun, encode_of_making hmakes]
        · simp [delegated_of_making hbefore hmakes, hbefore, hrun]
  · simp [delegated_of_error hbefore, hbefore]

end Delegates

end DataTree.Encoding

namespace DataTree.Decoding

variable {S U α : Type} [Backend S]

theorem delegated_direct {content : Decoding S U α} {d : Decoder S U} {key : String} {node : S}
    {outcome : Except Error α}
    (hfield : Backend.field d.current.node (d.naming.apply key) = .ok (some node))
    (hgives : content.Gives node outcome) :
    (do runOn (← Keyed.delegateFor key) content : Decoding S U α) d =
      Keyed.decode key content d := by
  have htaken : Keyed.delegateFor key d =
      .ok (.start node (d.path ++ [.name (d.naming.apply key)]) d.naming d.user) d := by
    simp [Keyed.delegateFor, find_of_field hfield]
  obtain ⟨last, hrun⟩ :=
    hgives (.start node (d.path ++ [.name (d.naming.apply key)]) d.naming d.user) rfl
  simp only [run_bind, htaken, Keyed.decode, Keyed.run_storedName, Keyed.decodeNamed,
    require_of_field hfield, hgives.inside, runOn]
  change content { Decoder.start node _ d.naming d.user with user := d.user } = _ at hrun
  rw [hrun]
  cases outcome with
  | ok x => rfl
  | error err => simp [given, Except.mapError, Decoder.start]

end DataTree.Decoding

namespace DataTree

open Backend (HoldsFields)
open Encoding (Step holding runSteps delegated direct SameOutcome)

/-- Going through a delegate comes to the same as a nested level, for every type that is made of
primitives, trees, lists, options and maps. -/
structure DelegatesAsDirect (S : Type) [Backend S] : Prop where
  /-- A level that is asked for as an object is open, with an object that takes fields. -/
  opened : ∀ {e e' : Encoder S Unit}, Encoding.keyed e = .ok () e' →
    ∃ object, e' = holding e object ∧ HoldsFields object
  /-- It stays open, whatever is done with it, errors included. -/
  stays_open : ∀ {object : S}, HoldsFields object → ∀ (steps : List (Bool × Step))
    (e : Encoder S Unit), ∃ object', HoldsFields object' ∧
      after (runSteps steps (holding e object)) = holding e object'
  /-- A delegate is written when it is finished, as if its field was encoded then. -/
  finished : ∀ {object : S}, HoldsFields object → ∀ {D : Empty → Type}
    (own : (y : Empty) → D y → Encoding S Unit Unit) (t : Codable Empty) (x : t.Carrier D)
    (key : String) (before between : List (Bool × Step)) (e e' : Encoder S Unit),
      delegated key (t.encode own x) before between (holding e object) = .ok () e' ↔
        (do runSteps before; runSteps between; Encoding.Keyed.encode key (t.encode own x))
          (holding e object) = .ok () e'
  /-- If only other fields are written in the meantime, it makes no difference but for their order
  whether the field was encoded before them. -/
  encoded : ∀ {object : S}, HoldsFields object → ∀ {D : Empty → Type}
    (own : (y : Empty) → D y → Encoding S Unit Unit) (t : Codable Empty) (x : t.Carrier D)
    (key : String) (before between : List (Bool × Step)) (e : Encoder S Unit),
      (∀ entry ∈ between, entry.2.field? e.naming ≠ some (e.naming.apply key)) →
      SameOutcome e (e.naming.apply key)
        (delegated key (t.encode own x) before between (holding e object))
        (direct key (t.encode own x) before between (holding e object))
  /-- Of a field that is there, the delegate decodes the same, and fails in the same way. -/
  decoded : ∀ {U : Type} {D : Empty → Type} (own : (y : Empty) → Decoding S U (D y))
    (t : Codable Empty) (key : String) {d : Decoder S U} {node : S},
      Backend.field d.current.node (d.naming.apply key) = .ok (some node) →
      (do Decoding.runOn (← Decoding.Keyed.delegateFor key) (t.decode own) :
        Decoding S U (t.Carrier D)) d = Decoding.Keyed.decode key (t.decode own) d

theorem delegatesAsDirect (S : Type) [Backend S] [FieldwiseBackend S] : DelegatesAsDirect S where
  opened {e e'} h := by
    change Encoding.claim _ _ e = _ at h
    rw [Encoding.claim] at h
    split at h
    next =>
      cases h
      exact ⟨Backend.object, rfl, FieldwiseBackend.holdsFields_object⟩
    next => cases h
  stays_open hobject steps e := by
    obtain ⟨object', hholds, hrun | ⟨err, hrun⟩⟩ := Encoding.runSteps_holding hobject steps e
    · exact ⟨object', hholds, congrArg after hrun⟩
    · exact ⟨object', hholds, congrArg after hrun⟩
  finished hobject _ own t x key before between e e' := by
    have hmakes : (t.encode own x).Makes (t.render (fun y => y.elim) x) :=
      Codable.encode_makes (fun y => y.elim) t x
    exact Encoding.delegated_eq_ok_iff hobject hmakes
  encoded hobject _ own t x key before between e hbetween := by
    have hmakes : (t.encode own x).Makes (t.render (fun y => y.elim) x) :=
      Codable.encode_makes (fun y => y.elim) t x
    exact Encoding.delegated_direct hobject hmakes hbetween
  decoded own t key d node hfield := by
    have hgives : (t.decode own).Gives node (t.read (fun y => y.elim) node) :=
      Codable.decode_gives (fun y => y.elim) t node
    exact Decoding.delegated_direct hfield hgives

/-- On every backend and under every naming policy a delegate is as good as a nested level. -/
theorem delegates_as_direct :
    DelegatesAsDirect Value ∧ DelegatesAsDirect Json ∧ DelegatesAsDirect Xml.Node :=
  ⟨delegatesAsDirect Value, delegatesAsDirect Json, delegatesAsDirect Xml.Node⟩

/-- A list through a delegate, with another field written before it is finished. -/
theorem delegates_as_direct_between :
    let e : Encoder Value Unit := .start [] .snake ()
    let own : (y : Empty) → Unit → Encoding Value Unit Unit := fun y => y.elim
    let list := Codable.encode own (.list (.prim .bool)) [true, false]
    let between : List (Bool × Step) := [(false, .encodeNil (.field "other"))]
    HoldsFields (.object [] : Value) ∧ SameOutcome e (e.naming.apply "inTime")
      (delegated "inTime" list [] between (holding e (.object [])))
      (direct "inTime" list [] between (holding e (.object []))) := by
  intro e own list between
  have hobject : HoldsFields (.object [] : Value) := FieldwiseBackend.holdsFields_object
  refine ⟨hobject, delegates_as_direct.1.encoded hobject own _ _ _ _ _ e ?_⟩
  intro entry hentry
  obtain rfl := List.mem_singleton.1 hentry
  decide

/-- The field of a delegate stands behind the one that was written before it was finished. -/
example :
    let content : Encoding Value Unit Unit := do
      Encoding.single
      Encoding.Single.encodePrimitive .bool true
    let other : List (Bool × Step) := [(false, .encodeNil (.field "b"))]
    Encoding.run .identity () (do Encoding.keyed; delegated "a" content [] other) =
        (.ok (.object [("b", Value.null), ("a", .leaf (.bool true))]), ()) ∧
      Encoding.run .identity () (do Encoding.keyed; direct "a" content [] other) =
        (.ok (.object [("a", .leaf (.bool true)), ("b", Value.null)]), ()) := ⟨rfl, rfl⟩

end DataTree
