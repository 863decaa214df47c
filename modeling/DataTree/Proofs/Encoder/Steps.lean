import DataTree.Proofs.Outcome
import DataTree.Script.Note

namespace DataTree.Encoding

/-- Where a container has a content written to. -/
inductive Place
  | field (key : String)
  | named (name : String)
  | item
  | whole

/-- A delegate is known by all that was done with it until it was finished: it may have come from
any container of any encoder. -/
inductive Step
  | request (c : Container)
  | encode (place : Place) (body : List (Bool × Step))
  | encodeOptional (key : String) (body : Option (List (Bool × Step)))
  | nested (inner : Nested) (body : List (Bool × Step))
  | encodeNil (place : Place)
  | encodePrimitive (p : Primitive) (x : p.Carrier)
  | encodeText (s : String)
  | encodeTree (v : Value)
  | finish (name : String) (path : Path) (naming : Naming) (body : List (Bool × Step))
  | fail (e : Error)

variable {S : Type}

def nextIndex (e : Encoder S Unit) : Nat :=
  match e.current with
  | .sequential _ n => n
  | _ => 0

namespace Place

def key (e : Encoder S Unit) : Place → Option Key
  | field key => some (.name (e.naming.apply key))
  | named name => some (.name name)
  | item => some (.index (nextIndex e))
  | whole => none

variable [Backend S]

def encode (body : Encoding S Unit Unit) : Place → Encoding S Unit Unit
  | field key => Keyed.encode key body
  | named name => Keyed.encodeNamed name body
  | item => Sequential.encode body
  | whole => Single.encode body

def encodeNil : Place → Encoding S Unit Unit
  | field key => Keyed.encodeNil key
  | named name => Keyed.insert name Backend.null
  | item => Sequential.encodeNil
  | whole => Single.encodeNil

end Place

variable [Backend S]

def request : Container → Encoding S Unit Unit
  | .keyed => keyed
  | .sequential => sequential
  | .single => single

def opened : Container → Encoder.Draft S
  | .keyed => .keyed Backend.object
  | .sequential => .sequential (Backend.array []) 0
  | .single => .single none

def nested {α : Type} (body : Encoding S Unit α) : Nested → Encoding S Unit α
  | .keyedField key => Keyed.nestedKeyed key body
  | .listField key => Keyed.nestedSequential key body
  | .keyedItem => Sequential.nestedKeyed body
  | .listItem => Sequential.nestedSequential body

def Place.ofNested : Nested → Place
  | .keyedField key | .listField key => .field key
  | .keyedItem | .listItem => .item

def within (inner : Nested) (e : Encoder S Unit) : Encoder S Unit :=
  { e.enter ((Place.ofNested inner).key e) with current := opened inner.container }

mutual

def Step.run : Step → Encoding S Unit Unit
  | .request c => Encoding.request c
  | .encode place body => place.encode (runSteps body)
  | .encodeOptional key none => Keyed.encodeOptional key none
  | .encodeOptional key (some body) => Keyed.encodeOptional key (some (runSteps body))
  | .nested inner body => Encoding.nested (runSteps body) inner
  | .encodeNil place => place.encodeNil
  | .encodePrimitive p x => Single.encodePrimitive p x
  | .encodeText s => Single.encodeText s
  | .encodeTree v => Single.encodeTree v
  | .finish name path naming body => do
    let (_, delegate) ← Keyed.runOn ⟨name, .start path naming ()⟩ (runSteps body)
    Keyed.finish delegate
  | .fail e => throw e

def runSteps : List (Bool × Step) → Encoding S Unit Unit
  | [] => return
  | (tried, step) :: rest => do
    match ← Script.attempt step.run with
    | .ok () => runSteps rest
    | .error e => if tried then runSteps rest else throw e

end

theorem runSteps_untried (step : Step) (rest : List (Bool × Step)) :
    (runSteps ((false, step) :: rest) : Encoding S Unit Unit) = (do step.run; runSteps rest) := by
  funext e
  simp only [runSteps, run_bind, Script.attempt]
  cases step.run e <;> rfl

theorem nested_eq (body : Encoding S Unit Unit) (inner : Nested) : nested body inner =
    (Place.ofNested inner).encode (do request inner.container; body) := by
  cases inner <;> rfl

theorem delegate_eq_run (key : String) (body : List (Bool × Step)) (e : Encoder S Unit) :
    (do
      let (_, delegate) ← Keyed.runOn (← Keyed.delegateFor key) (runSteps body)
      Keyed.finish delegate : Encoding S Unit Unit) e =
    let name := e.naming.apply key
    (Step.finish name (e.path ++ [.name name]) e.naming body).run e := rfl

mutual

/-- The step without the failed steps whose errors were swallowed inside it. -/
def Step.trim (e : Encoder S Unit) : Step → Step
  | .encode place body => .encode place (trimSteps (e.enter (place.key e)) body)
  | .encodeOptional key (some body) =>
    .encodeOptional key (some (trimSteps (e.enter ((Place.field key).key e)) body))
  | .nested inner body => .nested inner (trimSteps (within inner e) body)
  | .finish name path naming body =>
    .finish name path naming (trimSteps (.start path naming () : Encoder S Unit) body)
  | step => step

/-- The steps without those that failed and whose errors were swallowed, at every depth. -/
def trimSteps (e : Encoder S Unit) : List (Bool × Step) → List (Bool × Step)
  | [] => []
  | (tried, step) :: rest =>
    match step.run e with
    | .ok () e' => (tried, step.trim e) :: trimSteps e' rest
    | .error _ e' => if tried then trimSteps e' rest else (tried, step.trim e) :: rest

end

mutual

def Step.Clean (e : Encoder S Unit) : Step → Prop
  | .encode place body => CleanSteps (e.enter (place.key e)) body
  | .encodeOptional key (some body) => CleanSteps (e.enter ((Place.field key).key e)) body
  | .nested inner body => CleanSteps (within inner e) body
  | .finish _ path naming body => CleanSteps (.start path naming () : Encoder S Unit) body
  | _ => True

/-- No step failed with its error swallowed, at any depth. -/
def CleanSteps (e : Encoder S Unit) : List (Bool × Step) → Prop
  | [] => True
  | (tried, step) :: rest => step.Clean e ∧
    match step.run e with
    | .ok () e' => CleanSteps e' rest
    | .error _ _ => tried = false

end

end DataTree.Encoding

namespace DataTree.Codable

open Encoding (Step runSteps runSteps_untried)

variable {S : Type} [Backend S] {D : Empty → Type}

def steps : (t : Codable Empty) → t.Carrier D → List (Bool × Step)
  | prim p, x => [(false, .request .single), (false, .encodePrimitive p x)]
  | value, v => [(false, .request .single), (false, .encodeTree v)]
  | list item, xs =>
    (false, .request .sequential) :: xs.map fun x => (false, .encode .item (item.steps x))
  | option content, some x => content.steps x
  | option _, none => [(false, .request .single), (false, .encodeNil .whole)]
  | boxed content, x => content.steps x
  | sortedMap content, map => (false, .request .keyed) ::
    map.entries.map fun (name, x) => (false, .encode (.named name) (content.steps x))
  | dictionary content, map => (false, .request .keyed) ::
    map.entries.map fun (name, x) => (false, .encode (.named name) (content.steps x))
  | custom x, _ => x.elim

theorem runSteps_items {α : Type} {steps : α → List (Bool × Step)}
    {content : α → Encoding S Unit Unit} (h : ∀ x, runSteps (steps x) = content x) (xs : List α) :
    runSteps (xs.map fun x => (false, .encode .item (steps x))) =
      Encoding.Sequential.encodeAll (xs.map content) := by
  induction xs with
  | nil => rfl
  | cons x xs ih =>
      rw [List.map_cons, runSteps_untried, ih, Step.run, h]
      rfl

theorem runSteps_entries {α : Type} {steps : α → List (Bool × Step)}
    {content : α → Encoding S Unit Unit} (h : ∀ x, runSteps (steps x) = content x)
    (entries : List (String × α)) :
    runSteps (entries.map fun (name, x) => (false, .encode (.named name) (steps x))) =
      Encoding.Keyed.encodeEntries (entries.map fun (name, x) => (name, content x)) := by
  induction entries with
  | nil => rfl
  | cons entry entries ih =>
      rw [List.map_cons, runSteps_untried, ih, Step.run, h]
      rfl

theorem runSteps_one (step : Step) : (runSteps [(false, step)] : Encoding S Unit Unit) = step.run :=
  (runSteps_untried step []).trans bind_pure_unit

theorem runSteps_steps (own : (x : Empty) → D x → Encoding S Unit Unit) (t : Codable Empty)
    (x : t.Carrier D) : runSteps (t.steps x) = t.encode own x := by
  induction t with
  | prim p | value =>
      rw [steps, runSteps_untried, runSteps_one]
      rfl
  | list item ih =>
      rw [steps, runSteps_untried, runSteps_items ih]
      rfl
  | option content ih =>
      cases x with
      | none =>
          rw [steps, runSteps_untried, runSteps_one]
          rfl
      | some x => exact ih x
  | boxed content ih => exact ih x
  | sortedMap content ih | dictionary content ih =>
      rw [steps, runSteps_untried, runSteps_entries ih]
      rfl
  | custom y => exact y.elim

end DataTree.Codable
