import DataTree.Proofs.Decoder.Discipline
import DataTree.Proofs.Encoder.Standalone

namespace DataTree

/-- A level that a body runs on. It is the own level of a delegate, or it was entered for the
body. -/
structure Site where
  path : Path
  lent : Bool

/-- The path of the innermost level. Levels are listed from the outermost one inwards, behind the
path of the one around them. -/
def innermost (path : Path) : List Site → Path
  | [] => path
  | site :: sites => innermost site.path sites

def entered (sites : List Site) : List Site := sites.filter fun site => !site.lent

/-- The path that an error comes with to the one who called, where it was raised without. -/
def reported (sites : List Site) : Path := innermost [] (entered sites)

def AtDelegate (sites : List Site) : Prop := ∃ site ∈ sites.getLast?, site.lent = true

theorem innermost_of_ne_nil {sites : List Site} (h : sites ≠ []) (path path' : Path) :
    innermost path sites = innermost path' sites := by
  cases sites with
  | nil => exact absurd rfl h
  | cons site sites => rfl

theorem innermost_entered {sites : List Site} (h : ¬ AtDelegate sites) (path : Path) :
    innermost path (entered sites) = innermost path sites := by
  induction sites generalizing path with
  | nil => rfl
  | cons site sites ih =>
      cases sites with
      | nil =>
          have hlent : site.lent = false := Bool.eq_false_iff.2 fun hlent => h ⟨site, rfl, hlent⟩
          rw [entered, List.filter_cons_of_pos (by rw [hlent]; rfl)]
          rfl
      | cons next rest =>
          have hrest : ¬ AtDelegate (next :: rest) := h
          cases hlent : site.lent with
          | true =>
              rw [entered, List.filter_cons_of_neg (by rw [hlent]; decide)]
              exact ih hrest path
          | false =>
              rw [entered, List.filter_cons_of_pos (by rw [hlent]; rfl)]
              exact ih hrest site.path

theorem orAt_reported {fault : Fault} {sites : List Site} {path : Path}
    (h : entered sites ≠ [] → reported sites = [] → path = []) :
    (Error.mk fault (reported sites)).orAt path = ⟨fault, reported (⟨path, false⟩ :: sites)⟩ := by
  show _ = Error.mk fault (innermost path (entered sites))
  by_cases hinner : entered sites = []
  · rw [reported, hinner]
    rfl
  · rw [innermost_of_ne_nil hinner path [], Error.orAt]
    split
    next hempty =>
      have hroot : reported sites = [] := List.isEmpty_iff.1 hempty
      rw [h hinner hroot]
      exact congrArg (Error.mk fault) hroot.symm
    next => rfl

/-- The states of a kind of coder: where their levels stand, and which operations run a body on
another level. -/
class Leveled (σ : Type) where
  path : σ → Path
  /-- The levels are where they were. -/
  Kept : σ → σ → Prop
  /-- From the first state the operation runs the body on another level, in the second state. The
  flag says that the level is the own one of a delegate, and else it is entered. -/
  Opens : {α β : Type} → Bool → EStateM Error σ α → σ → EStateM Error σ β → σ → Prop
  kept_refl : ∀ s, Kept s s
  kept_trans : ∀ {s s' s''}, Kept s s' → Kept s' s'' → Kept s s''
  path_of_kept : ∀ {s s'}, Kept s s' → path s' = path s
  /-- The operation fails with the body, and places the error if it entered the level. -/
  error_of_opens : ∀ {α β : Type} {lent : Bool} {run : EStateM Error σ α} {s : σ}
    {body : EStateM Error σ β} {s' s₂ : σ} {e : Error}, Opens lent run s body s' →
      body s' = .error e s₂ → Kept s' s₂ →
      ∃ s₁, run s = .error (if lent then e else e.orAt (path s')) s₁ ∧ Kept s s₁
  /-- No delegate stands at the root. -/
  root_of_opens : ∀ {α β : Type} {lent : Bool} {run : EStateM Error σ α} {s : σ}
    {body : EStateM Error σ β} {s' : σ}, Opens lent run s body s' → path s' = [] →
      lent = false ∧ path s = []

open Leveled (path Kept Opens)

/-- The computation fails with an error that was raised without a place: at which path, and on which
levels, from the outermost one that was opened inwards. What was done before, swallowed errors
included, left the levels where they were. -/
inductive Raises {σ : Type} [Leveled σ] (fault : Fault) :
    {α : Type} → EStateM Error σ α → σ → Path → List Site → Prop
  | here {α : Type} (s : σ) : Raises fault (throw (.root fault) : EStateM Error σ α) s (path s) []
  | ahead {α β : Type} {first : EStateM Error σ α} {next : α → EStateM Error σ β} {s : σ}
      {place : Path} {sites : List Site} : Raises fault first s place sites →
      Raises fault (first >>= next) s place sites
  | behind {α β : Type} {first : EStateM Error σ α} {next : α → EStateM Error σ β} {s s' : σ}
      {x : α} {place : Path} {sites : List Site} : first s = .ok x s' → Kept s s' →
      Raises fault (next x) s' place sites → Raises fault (first >>= next) s place sites
  | level {α β : Type} {lent : Bool} {run : EStateM Error σ α} {body : EStateM Error σ β} {s s' : σ}
      {place : Path} {sites : List Site} : Opens lent run s body s' →
      Raises fault body s' place sites → Raises fault run s place (⟨path s', lent⟩ :: sites)

namespace Raises

variable {σ α : Type} [Leveled σ] {fault : Fault} {run : EStateM Error σ α} {s : σ} {place : Path}
  {sites : List Site}

theorem behind_keeping {β : Type} {first : EStateM Error σ β} {next : β → EStateM Error σ α}
    {x : β} {s' : σ} (h : Keeps Kept first) (hfirst : first s = .ok x s')
    (hnext : Raises fault (next x) s' place sites) :
    Raises fault (first >>= next) s place sites := by
  have hkept := h s
  rw [hfirst] at hkept
  exact .behind hfirst hkept hnext

theorem place_eq (h : Raises fault run s place sites) : place = innermost (path s) sites := by
  induction h with
  | here s => rfl
  | ahead _ ih => exact ih
  | behind _ hkept _ ih => rw [ih, Leveled.path_of_kept hkept]
  | level _ _ ih => exact ih

theorem reported_eq (h : Raises fault run s place sites) (hroot : path s = [])
    (hplaced : ¬ AtDelegate sites) : reported sites = place := by
  rw [reported, innermost_entered hplaced, h.place_eq, hroot]

theorem path_eq_nil (h : Raises fault run s place sites) (hentered : entered sites ≠ [])
    (hroot : reported sites = []) : path s = [] := by
  induction h with
  | here s => exact absurd rfl hentered
  | ahead _ ih => exact ih hentered hroot
  | behind _ hkept _ ih =>
      rw [← Leveled.path_of_kept hkept]
      exact ih hentered hroot
  | @level _ _ lent _ _ s s' _ sites hopens _ ih =>
      refine (Leveled.root_of_opens hopens ?_).2
      cases lent with
      | true => exact ih hentered hroot
      | false =>
          by_cases hinner : entered sites = []
          · have hlevel : innermost (path s') (entered sites) = [] := hroot
            rwa [hinner] at hlevel
          · exact ih hinner ((innermost_of_ne_nil hinner [] (path s')).trans hroot)

theorem outcome (h : Raises fault run s place sites) :
    ∃ s', run s = .error ⟨fault, reported sites⟩ s' ∧ Kept s s' := by
  induction h with
  | here s => exact ⟨s, rfl, Leveled.kept_refl s⟩
  | ahead _ ih =>
      obtain ⟨s', hrun, hkept⟩ := ih
      exact ⟨s', by simp [hrun], hkept⟩
  | behind hfirst hkept _ ih =>
      obtain ⟨s', hrun, hkept'⟩ := ih
      exact ⟨s', by simp [hfirst, hrun], Leveled.kept_trans hkept hkept'⟩
  | @level _ _ lent _ _ s s' _ sites hopens hbody ih =>
      obtain ⟨s₂, hrun, hkept⟩ := ih
      obtain ⟨s₁, hrun', hkept'⟩ := Leveled.error_of_opens hopens hrun hkept
      refine ⟨s₁, hrun'.trans ?_, hkept'⟩
      cases lent with
      | true => rfl
      | false => exact congrArg (EStateM.Result.error · s₁) (orAt_reported hbody.path_eq_nil)

end Raises

namespace Decoding

variable {S U : Type}

theorem inside_eq_error {α : Type} {body : Decoding S U α} {key : Option Key} {node : S}
    {d d₂ : Decoder S U} {e : Error} (h : body (d.enter key node) = .error e d₂)
    (hkept : Kept (d.enter key node) d₂) : inside key node body d =
      .error (e.orAt (d.path ++ key.toList)) (d₂.leave key) := by
  have hpath : d₂.path = d.path ++ key.toList := hkept.path
  rw [inside, h, ← hpath]

variable [Backend S]

theorem decode_eq_error {α : Type} {key : String} {node : S} {body : Decoding S U α}
    {d d₂ : Decoder S U} {e : Error}
    (hfield : Backend.field d.current.node (d.naming.apply key) = .ok (some node))
    (h : body (d.enter (some (.name (d.naming.apply key))) node) = .error e d₂)
    (hkept : Kept (d.enter (some (.name (d.naming.apply key))) node) d₂) :
    Keyed.decode key body d = .error (e.orAt (d.path ++ [.name (d.naming.apply key)]))
      (d₂.leave (some (.name (d.naming.apply key)))) := by
  simp [Keyed.decode, Keyed.decodeNamed, require_of_field hfield, inside_eq_error h hkept]

theorem decodeItem_eq_error {α : Type} {node : S} {body : Decoding S U α} {d d₂ : Decoder S U}
    {e : Error} (hnext : Sequential.next d = .ok node d)
    (h : body (d.enter (some (.index d.current.cursor)) node) = .error e d₂)
    (hkept : Kept (d.enter (some (.index d.current.cursor)) node) d₂) :
    Sequential.decode body d = .error (e.orAt (d.path ++ [.index d.current.cursor]))
      (d₂.leave (some (.index d.current.cursor))) := by
  simp [Sequential.decode, hnext, inside_eq_error h hkept]

def FindsNested (d : Decoder S U) (node : S) : Nested → Prop
  | .keyedField key | .listField key =>
    Backend.field d.current.node (d.naming.apply key) = .ok (some node)
  | .keyedItem | .listItem => Sequential.next d = .ok node d

/-- The level of a nested container, before the container is asked for. -/
def nestedLevel (d : Decoder S U) (node : S) : Nested → Decoder S U
  | .keyedField key | .listField key => d.enter (some (.name (d.naming.apply key))) node
  | .keyedItem | .listItem => d.enter (some (.index d.current.cursor)) node

/-- The operations that run a body on another level, with the levels that they run it on. -/
inductive Opens : {α β : Type} → Bool → Decoding S U α → Decoder S U → Decoding S U β →
    Decoder S U → Prop
  | field {α : Type} {key : String} {node : S} {d : Decoder S U} (body : Decoding S U α) :
      Backend.field d.current.node (d.naming.apply key) = .ok (some node) →
      Opens false (Keyed.decode key body) d body (d.enter (some (.name (d.naming.apply key))) node)
  | fieldIfPresent {α : Type} {key : String} {node : S} {d : Decoder S U}
      (body : Decoding S U α) :
      Backend.field d.current.node (d.naming.apply key) = .ok (some node) →
      Backend.isNull node = false → Opens false (Keyed.decodeOptional key body) d body
        (d.enter (some (.name (d.naming.apply key))) node)
  | named {α : Type} {name : String} {node : S} {d : Decoder S U} (body : Decoding S U α) :
      Backend.field d.current.node name = .ok (some node) →
      Opens false (Keyed.decodeNamed name body) d body (d.enter (some (.name name)) node)
  | item {α : Type} {node : S} {d : Decoder S U} (body : Decoding S U α) :
      Sequential.next d = .ok node d → Opens false (Sequential.decode body) d body
        (d.enter (some (.index d.current.cursor)) node)
  | itemIfPresent {α : Type} {node : S} {d : Decoder S U} (body : Decoding S U α) :
      Sequential.next d = .ok node d → Backend.isNull node = false →
      Opens false (Sequential.decodeOptional body) d body
        (d.enter (some (.index d.current.cursor)) node)
  | whole {α : Type} {d : Decoder S U} (body : Decoding S U α) :
      Opens false (Single.decode body) d body (d.enter none d.current.node)
  | nested {α : Type} (inner : Nested) {node : S} {d d' : Decoder S U} (body : Decoding S U α) :
      FindsNested d node inner → request inner.container (nestedLevel d node inner) = .ok () d' →
      Opens false (nested body inner) d body d'
  | delegate {α : Type} {other d : Decoder S U} (body : Decoding S U α) : other.path ≠ [] →
      Opens true (runOn other body) d body { other with user := d.user }
  /-- A delegate that is kept and may be used again. -/
  | delegateKept {α β : Type} {other d : Decoder S U} (body : Decoding S U α)
      (next : α → Decoder S U → Decoding S U β) : other.path ≠ [] →
      Opens true (do
        let (outcome, other) ← resume other body
        next (← MonadExcept.ofExcept outcome) other) d body { other with user := d.user }

theorem path_of_granted {c : Container} {level d' : Decoder S U}
    (h : request c level = .ok () d') : d'.path = level.path := by
  have hkept := keeps_request c level
  rw [h] at hkept
  exact hkept.path

theorem nested_eq_error {α : Type} {inner : Nested} {node : S} {body : Decoding S U α}
    {d d' d₂ : Decoder S U} {e : Error} (hfinds : FindsNested d node inner)
    (hgranted : request inner.container (nestedLevel d node inner) = .ok () d')
    (hbody : body d' = .error e d₂) (hkept : Kept d' d₂) :
    ∃ d₁, nested body inner d = .error (e.orAt d'.path) d₁ ∧ Kept d d₁ := by
  have hlevel := keeps_request inner.container (nestedLevel d node inner)
  rw [hgranted] at hlevel
  have hkept' := hlevel.trans hkept
  have hrun : (do request inner.container; body) (nestedLevel d node inner) = .error e d₂ :=
    (run_bind_of_ok hgranted).trans hbody
  rw [path_of_granted hgranted]
  cases inner with
  | keyedField key | listField key =>
      refine ⟨_, ?_, kept_leave hkept'⟩
      exact decode_eq_error hfinds hrun hkept'
  | keyedItem | listItem =>
      refine ⟨_, ?_, kept_leave hkept'⟩
      exact decodeItem_eq_error hfinds hrun hkept'

theorem error_of_opens {α β : Type} {lent : Bool} {run : Decoding S U α} {d : Decoder S U}
    {body : Decoding S U β} {d' d₂ : Decoder S U} {e : Error} (h : Opens lent run d body d')
    (hbody : body d' = .error e d₂) (hkept : Kept d' d₂) :
    ∃ d₁, run d = .error (if lent then e else e.orAt d'.path) d₁ ∧ Kept d d₁ := by
  cases h with
  | field body hfield =>
      refine ⟨_, ?_, kept_leave hkept⟩
      exact decode_eq_error hfield hbody hkept
  | fieldIfPresent body hfield hnull =>
      refine ⟨_, ?_, kept_leave hkept⟩
      simp [Keyed.decodeOptional, find_of_field hfield, hnull, inside_eq_error hbody hkept]
  | named body hfield =>
      refine ⟨_, ?_, kept_leave hkept⟩
      simp [Keyed.decodeNamed, require_of_field hfield, inside_eq_error hbody hkept]
  | item body hnext =>
      refine ⟨_, ?_, kept_leave hkept⟩
      exact decodeItem_eq_error hnext hbody hkept
  | itemIfPresent body hnext hnull =>
      refine ⟨_, ?_, kept_leave hkept⟩
      simp [Sequential.decodeOptional, hnext, hnull, decodeItem_eq_error hnext hbody hkept]
  | whole body => exact ⟨_, inside_eq_error hbody hkept, kept_leave hkept⟩
  | nested inner body hfinds hgranted => exact nested_eq_error hfinds hgranted hbody hkept
  | @delegate _ other d body _ =>
      refine ⟨{ d with user := d₂.user }, ?_, ⟨rfl, id, rfl, rfl, rfl⟩⟩
      rw [runOn, hbody]
      rfl
  | @delegateKept _ _ other d body next _ =>
      refine ⟨{ d with user := d₂.user }, ?_, ⟨rfl, id, rfl, rfl, rfl⟩⟩
      have hresume : resume other body d = .ok (.error e, d₂) { d with user := d₂.user } := by
        rw [resume, hbody]
      simp only [run_bind, hresume]
      rfl

theorem root_of_opens {α β : Type} {lent : Bool} {run : Decoding S U α} {d : Decoder S U}
    {body : Decoding S U β} {d' : Decoder S U} (h : Opens lent run d body d')
    (hroot : d'.path = []) : lent = false ∧ d.path = [] := by
  cases h with
  | delegate body hother | delegateKept body next hother => exact absurd hroot hother
  | nested inner body hfinds hgranted =>
      have hpath := (path_of_granted hgranted).symm.trans hroot
      cases inner <;> exact ⟨rfl, (List.append_eq_nil_iff.1 hpath).1⟩
  | _ => exact ⟨rfl, (List.append_eq_nil_iff.1 hroot).1⟩

instance : Leveled (Decoder S U) where
  path d := d.path
  Kept := Kept
  Opens := Opens
  kept_refl := .refl
  kept_trans := .trans
  path_of_kept h := h.path
  error_of_opens := error_of_opens
  root_of_opens := root_of_opens

section Raising

variable {α β : Type} {fault : Fault} {d d' : Decoder S U} {place : Path} {sites : List Site}

theorem raises_level {lent : Bool} {run : Decoding S U α} {body : Decoding S U β}
    (hopens : Opens lent run d body d') (hbody : Raises fault body d' place sites) :
    Raises fault run d place (⟨d'.path, lent⟩ :: sites) := .level hopens hbody

theorem raises_nested {inner : Nested} {node : S} {body : Decoding S U α}
    (hfinds : FindsNested d node inner)
    (hgranted : request inner.container (nestedLevel d node inner) = .ok () d')
    (hbody : Raises fault body d' place sites) : Raises fault (nested body inner) d place
      (⟨(nestedLevel d node inner).path, false⟩ :: sites) := by
  rw [← path_of_granted hgranted]
  exact raises_level (.nested inner body hfinds hgranted) hbody

theorem raises_delegate {key : String} {body : Decoding S U α} {other : Decoder S U}
    (htaken : Keyed.delegateFor key d = .ok other d)
    (hbody : Raises fault body { other with user := d.user } place sites) :
    Raises fault (do runOn (← Keyed.delegateFor key) body : Decoding S U α) d place
      (⟨d.path ++ [.name (d.naming.apply key)], true⟩ :: sites) := by
  have hpath : other.path = d.path ++ [.name (d.naming.apply key)] := Entry.delegateFor_path htaken
  have hother : other.path ≠ [] := by
    rw [hpath]
    exact List.append_ne_nil_of_right_ne_nil _ nofun
  have hlevel := raises_level (.delegate body hother) hbody
  rw [← hpath]
  exact .behind htaken (.refl d) hlevel

end Raising

end Decoding

namespace Encoding

variable {S : Type} [Backend S]

theorem inside_eq_error {α : Type} {body : Encoding S Unit α} {key : Option Key}
    {e e₂ : Encoder S Unit} {err : Error} (h : body (e.enter key) = .error err e₂)
    (hkept : Kept (e.enter key) e₂) : inside key body e =
      .error (err.orAt (e.path ++ key.toList)) e := by
  have hpath : e₂.path = e.path ++ key.toList := hkept.path
  rw [inside, h, ← hpath]
  exact congrArg (EStateM.Result.error _) hkept.leave

theorem encode_eq_error {α : Type} {key : String} {body : Encoding S Unit α}
    {e e₂ : Encoder S Unit} {err : Error}
    (h : body (e.enter (some (.name (e.naming.apply key)))) = .error err e₂)
    (hkept : Kept (e.enter (some (.name (e.naming.apply key)))) e₂) :
    Keyed.encode key body e = .error (err.orAt (e.path ++ [.name (e.naming.apply key)])) e := by
  simp [Keyed.encode, Keyed.encodeNamed, inside_eq_error h hkept]

theorem encodeItem_eq_error {α : Type} {body : Encoding S Unit α} {e e₂ : Encoder S Unit}
    {err : Error} (h : body (e.enter (some (.index (nextIndex e)))) = .error err e₂)
    (hkept : Kept (e.enter (some (.index (nextIndex e)))) e₂) :
    Sequential.encode body e = .error (err.orAt (e.path ++ [.index (nextIndex e)])) e := by
  simp [Sequential.encode, inside_eq_error h hkept]

/-- The operations that run a body on another level, with the levels that they run it on. -/
inductive Opens : {α β : Type} → Bool → Encoding S Unit α → Encoder S Unit → Encoding S Unit β →
    Encoder S Unit → Prop
  | field {α : Type} (key : String) (body : Encoding S Unit α) (e : Encoder S Unit) :
      Opens false (Keyed.encode key body) e body (e.enter (some (.name (e.naming.apply key))))
  | named {α : Type} (name : String) (body : Encoding S Unit α) (e : Encoder S Unit) :
      Opens false (Keyed.encodeNamed name body) e body (e.enter (some (.name name)))
  | item {α : Type} (body : Encoding S Unit α) (e : Encoder S Unit) :
      Opens false (Sequential.encode body) e body (e.enter (some (.index (nextIndex e))))
  | whole (body : Encoding S Unit Unit) (e : Encoder S Unit) :
      Opens false (Single.encode body) e body (e.enter none)
  | nested {α : Type} (inner : Nested) (body : Encoding S Unit α) (e : Encoder S Unit) :
      Opens false (nested body inner) e body (within inner e)
  /-- A delegate that is kept until it is finished. -/
  | delegate {α β : Type} {other : Keyed.Delegate S Unit} (body : Encoding S Unit α)
      (next : α → Keyed.Delegate S Unit → Encoding S Unit β) (e : Encoder S Unit) :
      other.encoder.path ≠ [] → Opens true (do
        let (outcome, other) ← Keyed.runOn other body
        next (← MonadExcept.ofExcept outcome) other) e body other.encoder

theorem nested_eq_error {α : Type} (inner : Nested) {body : Encoding S Unit α}
    {e e₂ : Encoder S Unit} {err : Error} (hbody : body (within inner e) = .error err e₂)
    (hkept : Kept (within inner e) e₂) :
    nested body inner e = .error (err.orAt (within inner e).path) e := by
  have hgranted := request_enter inner.container ((Place.ofNested inner).key e) e
  have hrun : (do request inner.container; body) (e.enter ((Place.ofNested inner).key e)) =
    .error err e₂ := (run_bind_of_ok hgranted).trans hbody
  have hkept' : Kept (e.enter ((Place.ofNested inner).key e)) e₂ :=
    ⟨hkept.outer, hkept.path, hkept.naming⟩
  cases inner with
  | keyedField key | listField key => exact encode_eq_error hrun hkept'
  | keyedItem | listItem => exact encodeItem_eq_error hrun hkept'

theorem error_of_opens {α β : Type} {lent : Bool} {run : Encoding S Unit α} {e : Encoder S Unit}
    {body : Encoding S Unit β} {e' e₂ : Encoder S Unit} {err : Error} (h : Opens lent run e body e')
    (hbody : body e' = .error err e₂) (hkept : Kept e' e₂) :
    ∃ e₁, run e = .error (if lent then err else err.orAt e'.path) e₁ ∧ Kept e e₁ := by
  cases h with
  | field key body e => exact ⟨e, encode_eq_error hbody hkept, .refl e⟩
  | named name body e | whole body e =>
      exact ⟨e, run_bind_of_error (inside_eq_error hbody hkept), .refl e⟩
  | item body e => exact ⟨e, encodeItem_eq_error hbody hkept, .refl e⟩
  | nested inner body e => exact ⟨e, nested_eq_error inner hbody hkept, .refl e⟩
  | @delegate _ _ other body next e _ =>
      have hrun := runOn_eq other body e
      rw [hbody] at hrun
      refine ⟨e, ?_, .refl e⟩
      simp only [run_bind, hrun]
      rfl

theorem root_of_opens {α β : Type} {lent : Bool} {run : Encoding S Unit α} {e : Encoder S Unit}
    {body : Encoding S Unit β} {e' : Encoder S Unit} (h : Opens lent run e body e')
    (hroot : e'.path = []) : lent = false ∧ e.path = [] := by
  cases h with
  | delegate body next e hother => exact absurd hroot hother
  | nested inner body e => cases inner <;> exact ⟨rfl, (List.append_eq_nil_iff.1 hroot).1⟩
  | _ => exact ⟨rfl, (List.append_eq_nil_iff.1 hroot).1⟩

instance : Leveled (Encoder S Unit) where
  path e := e.path
  Kept := Kept
  Opens := Opens
  kept_refl := .refl
  kept_trans := .trans
  path_of_kept h := h.path
  error_of_opens := error_of_opens
  root_of_opens := root_of_opens

section Raising

variable {α β : Type} {fault : Fault} {e e' : Encoder S Unit} {place : Path} {sites : List Site}

theorem raises_level {lent : Bool} {run : Encoding S Unit α} {body : Encoding S Unit β}
    (hopens : Opens lent run e body e') (hbody : Raises fault body e' place sites) :
    Raises fault run e place (⟨e'.path, lent⟩ :: sites) := .level hopens hbody

theorem raises_delegate {key : String} {body : Encoding S Unit α}
    {next : α → Keyed.Delegate S Unit → Encoding S Unit β}
    (hbody : Raises fault body
      (.start (e.path ++ [.name (e.naming.apply key)]) e.naming ()) place sites) :
    Raises fault (do
      let (outcome, other) ← Keyed.runOn (← Keyed.delegateFor key) body
      next (← MonadExcept.ofExcept outcome) other : Encoding S Unit β) e place
        (⟨e.path ++ [.name (e.naming.apply key)], true⟩ :: sites) := by
  have hother : (taken key e).encoder.path ≠ [] := List.append_ne_nil_of_right_ne_nil _ nofun
  exact .behind (run_delegateFor key e) (.refl e)
    (raises_level (.delegate body next e hother) hbody)

end Raising

end Encoding

/-- What becomes of an error that a body raises without a place, at whatever levels. -/
structure ReportsErrors (S : Type) [Backend S] : Prop where
  /-- The fault comes out of decoding a tree with the path of the innermost level that was entered,
  which is the one where it was raised, unless that is the own level of a delegate. -/
  decoded : ∀ {U α : Type} {naming : Naming} {user : U} {node : S} {body : Decoding S U α}
    {fault : Fault} {place : Path} {sites : List Site},
    Raises fault body (Decoder.start node [] naming user) place sites →
      (Decoding.run naming user node body).1 = .error ⟨fault, reported sites⟩ ∧
        (¬ AtDelegate sites → reported sites = place)
  /-- So it does with encoding. -/
  encoded : ∀ {naming : Naming} {body : Encoding S Unit Unit} {fault : Fault} {place : Path}
    {sites : List Site}, Raises fault body (Encoder.start [] naming ()) place sites →
      (Encoding.run naming () body).1 = .error ⟨fault, reported sites⟩ ∧
        (¬ AtDelegate sites → reported sites = place)

/-- Errors come out as they were raised, and with their place, in every nesting of levels. Only at
its own level a delegate leaves them to the levels around it. -/
theorem errors_reported (S : Type) [Backend S] : ReportsErrors S where
  decoded {U α naming user node body fault place sites} h := by
    obtain ⟨d, hrun, -⟩ := h.outcome
    refine ⟨?_, h.reported_eq rfl⟩
    rw [Decoding.run, hrun]
  encoded {naming body fault place sites} h := by
    obtain ⟨e, hrun, -⟩ := h.outcome
    refine ⟨?_, h.reported_eq rfl⟩
    rw [Encoding.run, hrun]

/-- The errors of items find their places: behind a delegate that decodes, and in a nested list that
is encoded. -/
theorem errors_reported_item :
    let decoded : Decoding Value Unit Unit := do
      Decoding.keyed
      Decoding.runOn (← Decoding.Keyed.delegateFor "a") (do
        Decoding.keyed
        Decoding.Keyed.nestedSequential "b" (Decoding.Sequential.decode (throw (.custom "no"))))
    let encoded : Encoding Value Unit Unit := do
      Encoding.keyed
      Encoding.Keyed.nestedSequential "a" (Encoding.Sequential.encode (throw (.custom "no")))
    (Decoding.run .identity () (.object [("a", .object [("b", .array [Value.null])])]) decoded).1 =
        .error ⟨.custom "no", [.name "a", .name "b", .index 0]⟩ ∧
      (Encoding.run .identity () encoded).1 = .error ⟨.custom "no", [.name "a", .index 0]⟩ := by
  intro decoded encoded
  have hdecoded : Raises (.custom "no") decoded
      (.start (.object [("a", .object [("b", .array [Value.null])])]) [] .identity ())
      [.name "a", .name "b", .index 0] [⟨[.name "a"], true⟩, ⟨[.name "a", .name "b"], false⟩,
        ⟨[.name "a", .name "b", .index 0], false⟩] := by
    refine .behind_keeping (Decoding.keeps_request .keyed) rfl (Decoding.raises_delegate rfl ?_)
    refine .behind_keeping (Decoding.keeps_request .keyed) rfl ?_
    change Raises _ (Decoding.nested _ (.listField "b")) _ _ _
    refine Decoding.raises_nested rfl rfl ?_
    exact Decoding.raises_level (.item _ rfl) (.here _)
  have hencoded : Raises (.custom "no") encoded (.start [] .identity ())
      [.name "a", .index 0] [⟨[.name "a"], false⟩, ⟨[.name "a", .index 0], false⟩] := by
    refine .behind_keeping (Encoding.Traceless.request .keyed).keeps rfl ?_
    refine Encoding.raises_level (.nested (.listField "a") _ _) ?_
    exact Encoding.raises_level (.item _ _) (.here _)
  exact ⟨((errors_reported Value).decoded hdecoded).1, ((errors_reported Value).encoded hencoded).1⟩

/-- At its own level a delegate has no place for the error, neither where it decodes nor where it
encodes. -/
theorem errors_unplaced_at_delegate :
    let decoded : Decoding Value Unit Unit := do
      Decoding.keyed
      Decoding.runOn (← Decoding.Keyed.delegateFor "a") (throw (.custom "no"))
    let encoded : Encoding Value Unit Unit := do
      Encoding.keyed
      let (outcome, other) ← Encoding.Keyed.runOn (← Encoding.Keyed.delegateFor "a")
        (throw (.custom "no"))
      MonadExcept.ofExcept outcome
      Encoding.Keyed.finish other
    (Raises (.custom "no") decoded (.start (.object [("a", Value.null)]) [] .identity ())
        [.name "a"] [⟨[.name "a"], true⟩] ∧
      (Decoding.run .identity () (.object [("a", Value.null)]) decoded).1 =
        .error ⟨.custom "no", []⟩) ∧
    Raises (.custom "no") encoded (.start [] .identity ()) [.name "a"] [⟨[.name "a"], true⟩] ∧
      (Encoding.run .identity () encoded).1 = .error ⟨.custom "no", []⟩ := by
  intro decoded encoded
  refine ⟨⟨?_, rfl⟩, ?_, rfl⟩
  · refine .behind_keeping (Decoding.keeps_request .keyed) rfl ?_
    exact Decoding.raises_delegate rfl (.here _)
  · refine .behind_keeping (Encoding.Traceless.request .keyed).keeps rfl ?_
    exact Encoding.raises_delegate (.here _)

end DataTree
