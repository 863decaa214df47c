import DataTree.Proofs.Outcome
import DataTree.Script.Note

namespace DataTree

variable {ε σ α β : Type} {r : σ → σ → Prop}

/-- The state in the end, also where the computation failed. -/
def after (result : EStateM.Result ε σ α) : σ :=
  match result with
  | .ok _ s | .error _ s => s

theorem after_bind (first : EStateM ε σ α) (next : α → EStateM ε σ β) (s : σ) :
    after ((first >>= next) s) = match first s with
      | .ok x s' => after (next x s')
      | .error _ s' => s' := by
  rw [run_bind]
  cases first s <;> rfl

/-- The computation looks at the state, and leaves it as it is. -/
def Looks (look : EStateM ε σ α) : Prop := ∀ s, after (look s) = s

/-- The state in the end is related to the one in the beginning. -/
def Keeps (r : σ → σ → Prop) (run : EStateM ε σ α) : Prop := ∀ s, r s (after (run s))

namespace Looks

theorem pure (x : α) : Looks (pure x : EStateM ε σ α) := fun _ => rfl

theorem get : Looks (get : EStateM ε σ σ) := fun _ => rfl

theorem bind {first : EStateM ε σ α} {next : α → EStateM ε σ β} (h : Looks first)
    (h' : ∀ x, Looks (next x)) : Looks (first >>= next) := by
  intro s
  have hfirst := h s
  rw [after_bind]
  cases hrun : first s with
  | ok x s' =>
      rw [hrun] at hfirst
      obtain rfl : s' = s := hfirst
      exact h' x s'
  | error e s' =>
      rw [hrun] at hfirst
      exact hfirst

theorem read (f : σ → α) : Looks (do return f (← MonadState.get) : EStateM ε σ α) :=
  get.bind fun s => pure (f s)

theorem bind_congr {look : EStateM ε σ α} {next next' : α → EStateM ε σ β} (h : Looks look)
    {s : σ} (hnext : ∀ x, look s = .ok x s → next x s = next' x s) :
    (look >>= next) s = (look >>= next') s := by
  have hlook := h s
  rw [run_bind, run_bind]
  cases hrun : look s with
  | ok x s' =>
      rw [hrun] at hlook
      obtain rfl : s' = s := hlook
      exact hnext x hrun
  | error e s' => rfl

theorem keeps [Std.Refl r] {look : EStateM ε σ α} (h : Looks look) : Keeps r look := by
  intro s
  rw [h s]
  exact Std.Refl.refl s

end Looks

namespace Keeps

theorem pure [Std.Refl r] (x : α) : Keeps r (pure x : EStateM ε σ α) := (Looks.pure x).keeps

theorem throw [Std.Refl r] (e : ε) : Keeps r (throw e : EStateM ε σ α) := fun s =>
  Std.Refl.refl s

theorem bind [Trans r r r] {first : EStateM ε σ α} {next : α → EStateM ε σ β}
    (h : Keeps r first) (h' : ∀ x, Keeps r (next x)) : Keeps r (first >>= next) := by
  intro s
  have hfirst := h s
  rw [after_bind]
  cases hrun : first s with
  | ok x s' =>
      rw [hrun] at hfirst
      exact Trans.trans hfirst (h' x s')
  | error e s' =>
      rw [hrun] at hfirst
      exact hfirst

theorem attempt {run : EStateM Error σ α} (h : Keeps r run) : Keeps r (Script.attempt run) := by
  intro s
  have hrun := h s
  rw [Script.attempt]
  cases hs : run s <;> rw [hs] at hrun <;> exact hrun

end Keeps

def changed (f : σ → σ) : EStateM.Result ε σ α → EStateM.Result ε σ α
  | .ok x s => .ok x (f s)
  | .error e s => .error e (f s)

/-- What is done to the state beforehand is not seen, and is still there afterwards. -/
def Commutes (f : σ → σ) (run : EStateM ε σ α) : Prop := ∀ s, run (f s) = changed f (run s)

namespace Commutes

variable {f : σ → σ}

theorem pure (x : α) : Commutes f (pure x : EStateM ε σ α) := fun _ => rfl

theorem throw (e : ε) : Commutes f (throw e : EStateM ε σ α) := fun _ => rfl

theorem bind {first : EStateM ε σ α} {next : α → EStateM ε σ β} (h : Commutes f first)
    (h' : ∀ x, Commutes f (next x)) : Commutes f (first >>= next) := by
  intro s
  rw [run_bind, run_bind, h s]
  cases first s with
  | ok x s' => exact h' x s'
  | error e s' => rfl

theorem attempt {run : EStateM Error σ α} (h : Commutes f run) :
    Commutes f (Script.attempt run) := by
  intro s
  rw [Script.attempt, Script.attempt, h s]
  cases run s <;> rfl

end Commutes

end DataTree
