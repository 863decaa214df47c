import DataTree.Proofs.Encoder.Traceless

namespace DataTree.Encoding

variable {S α β : Type}

/-- The encoder with other levels around the current one. -/
def around (outer : List (Encoder.Draft S)) (e : Encoder S Unit) : Encoder S Unit :=
  { e with outer }

def Blind (run : Encoding S Unit α) : Prop := ∀ outer, Commutes (around outer) run

namespace Blind

theorem pure (x : α) : Blind (pure x : Encoding S Unit α) := fun _ => .pure x

theorem throw (err : Error) : Blind (throw err : Encoding S Unit α) := fun _ => .throw err

theorem bind {first : Encoding S Unit α} {next : α → Encoding S Unit β} (h : Blind first)
    (h' : ∀ x, Blind (next x)) : Blind (first >>= next) := fun outer =>
  (h outer).bind fun x => h' x outer

theorem attempt {run : Encoding S Unit α} (h : Blind run) : Blind (Script.attempt run) :=
  fun outer => (h outer).attempt

theorem failAt (keys : Path) (fault : Fault) : Blind (failAt keys fault : Encoding S Unit α) :=
  fun _ _ => rfl

theorem claim (c : Container) (draft : Encoder.Draft S) : Blind (claim c draft) := by
  intro outer e
  obtain ⟨current, _, path, naming, _⟩ := e
  cases current <;> rfl

theorem store (node : S) : Blind (Single.store node) := by
  intro outer e
  obtain ⟨current, _, path, naming, _⟩ := e
  cases current with
  | single found => cases found <;> rfl
  | _ => rfl

theorem count : Blind (Sequential.count : Encoding S Unit Nat) := by
  intro outer e
  rw [run_count, run_count]
  rfl

section Backends

variable [Backend S]

theorem request (c : Container) : Blind (request c : Encoding S Unit Unit) := by
  cases c <;> exact claim _ _

theorem encodePrimitive (p : Primitive) (x : p.Carrier) :
    Blind (Single.encodePrimitive p x : Encoding S Unit Unit) := by
  rw [Single.encodePrimitive]
  split
  next => exact store _
  next => exact failAt [] _

theorem encodeTree (v : Value) : Blind (Single.encodeTree v : Encoding S Unit Unit) := by
  intro outer e
  rw [Single.encodeTree, Single.encodeTree]
  cases (ofValue v : Except Error S) with
  | ok node => exact store node outer e
  | error err => rfl

theorem insert (name : String) (node : S) : Blind (Keyed.insert name node) := by
  intro outer e
  obtain ⟨current, _, path, naming, _⟩ := e
  cases current with
  | keyed object =>
      simp only [Keyed.insert, around]
      cases Backend.insertField name node object <;> rfl
  | _ => rfl

theorem push (index : Nat) (node : S) : Blind (Sequential.push index node) := by
  intro outer e
  obtain ⟨current, _, path, naming, _⟩ := e
  cases current with
  | sequential array n =>
      simp only [Sequential.push, around]
      cases Backend.pushItem node array <;> rfl
  | _ => rfl

end Backends

end Blind

section Inside

variable [Backend S] {body : Encoding S Unit α}

/-- A nested level is an encoder of its own: nothing around it is seen or changed, and an error
without a place gets that of the level. -/
theorem inside_eq (hblind : Blind body) (hkeeps : Keeps Kept body) (key : Option Key)
    (e : Encoder S Unit) :
    inside key body e = match body (.start (e.path ++ key.toList) e.naming ()) with
      | .ok x e' => .ok (x, e'.current.node) e
      | .error err _ => .error (err.orAt (e.path ++ key.toList)) e := by
  have hrun : body (e.enter key) = changed (around (e.current :: e.outer))
    (body (.start (e.path ++ key.toList) e.naming ())) :=
      hblind (e.current :: e.outer) (.start (e.path ++ key.toList) e.naming ())
  have hkept := hkeeps (e.enter key)
  rw [inside]
  rw [hrun] at hkept ⊢
  cases hbody : body (.start (e.path ++ key.toList) e.naming ()) with
  | ok x e' =>
      rw [hbody] at hkept
      exact congrArg (EStateM.Result.ok (x, e'.current.node)) hkept.leave
  | error err e' =>
      rw [hbody] at hkept
      have hpath : e'.path = e.path ++ key.toList := hkept.path
      show EStateM.Result.error (err.orAt e'.path) _ = _
      rw [hpath]
      exact congrArg (EStateM.Result.error _) hkept.leave

theorem inside_of_ok (hblind : Blind body) (hkeeps : Keeps Kept body) {key : Option Key}
    {e e' : Encoder S Unit} {x : α}
    (h : body (.start (e.path ++ key.toList) e.naming ()) = .ok x e') :
    inside key body e = .ok (x, e'.current.node) e := by
  rw [inside_eq hblind hkeeps, h]

theorem inside_of_error (hblind : Blind body) (hkeeps : Keeps Kept body) {key : Option Key}
    {e e' : Encoder S Unit} {err : Error}
    (h : body (.start (e.path ++ key.toList) e.naming ()) = .error err e') :
    inside key body e = .error (err.orAt (e.path ++ key.toList)) e := by
  rw [inside_eq hblind hkeeps, h]

theorem Blind.inside (hblind : Blind body) (hkeeps : Keeps Kept body) (key : Option Key) :
    Blind (inside key body) := by
  intro outer e
  rw [inside_eq hblind hkeeps, inside_eq hblind hkeeps]
  show (match body (.start (e.path ++ key.toList) e.naming ()) with
    | .ok x e' => _
    | .error err e' => _) = _
  cases body (.start (e.path ++ key.toList) e.naming ()) <;> rfl

theorem Blind.place {body : Encoding S Unit Unit} (hblind : Blind body) (hkeeps : Keeps Kept body)
    (place : Place) : Blind (place.encode body) := by
  have hnamed (name : String) : Blind (Keyed.encodeNamed name body) :=
    (hblind.inside hkeeps _).bind fun (x, node) => (insert name node).bind fun _ => .pure x
  cases place with
  | field key => exact .bind (fun _ _ => rfl) hnamed
  | named name => exact hnamed name
  | item =>
      refine count.bind fun index => (hblind.inside hkeeps _).bind fun (x, node) => ?_
      exact (push index node).bind fun _ => .pure x
  | whole => exact (hblind.inside hkeeps none).bind fun (_, node) => store node

theorem Blind.nested {body : Encoding S Unit Unit} (hblind : Blind body) (hkeeps : Keeps Kept body)
    (inner : Nested) : Blind (nested body inner) := by
  rw [nested_eq]
  exact .place ((request inner.container).bind fun _ => hblind)
    ((Traceless.request inner.container).keeps.bind fun _ => hkeeps) _

theorem Blind.placeNil (place : Place) : Blind (place.encodeNil : Encoding S Unit Unit) := by
  cases place with
  | field key => exact .bind (fun _ _ => rfl) fun name => insert name _
  | named name => exact insert name _
  | item => exact count.bind fun index => push index _
  | whole => exact store _

omit [Backend S] in
theorem runOn_eq (other : Keyed.Delegate S Unit) (body : Encoding S Unit α) (e : Encoder S Unit) :
    Keyed.runOn other body e = match body other.encoder with
      | .ok x encoder => .ok (.ok x, { other with encoder }) e
      | .error err encoder => .ok (.error err, { other with encoder }) e := by
  have hsame : { other.encoder with user := e.user } = other.encoder := rfl
  rw [Keyed.runOn, hsame]
  cases body other.encoder <;> rfl

omit [Backend S] in
theorem Blind.runOn (other : Keyed.Delegate S Unit) (body : Encoding S Unit α) :
    Blind (Keyed.runOn other body) := by
  intro outer e
  rw [runOn_eq, runOn_eq]
  cases body other.encoder <;> rfl

end Inside

mutual

theorem Step.blind [Backend S] [CoherentBackend S] :
    (step : Step) → Blind (step.run : Encoding S Unit Unit)
  | .request c => .request c
  | .encode place body => .place (blind_runSteps body) (keeps_runSteps body) place
  | .encodeOptional _ none => .pure ()
  | .encodeOptional key (some body) =>
    .place (blind_runSteps body) (keeps_runSteps body) (.field key)
  | .nested inner body => .nested (blind_runSteps body) (keeps_runSteps body) inner
  | .encodeNil place => .placeNil place
  | .encodePrimitive p x => .encodePrimitive p x
  | .encodeText _ => .store _
  | .encodeTree v => .encodeTree v
  | .finish _ _ _ _ => (Blind.runOn _ _).bind fun (_, delegate) => .insert delegate.name _
  | .fail err => .throw err

theorem blind_runSteps [Backend S] [CoherentBackend S] :
    (steps : List (Bool × Step)) → Blind (runSteps steps : Encoding S Unit Unit)
  | [] => .pure ()
  | (tried, step) :: rest => by
      refine step.blind.attempt.bind fun outcome => ?_
      cases outcome with
      | ok _ => exact blind_runSteps rest
      | error err =>
          dsimp only
          split
          next => exact blind_runSteps rest
          next => exact .throw err

end

end DataTree.Encoding
