import DataTree.Json
import DataTree.Mapping.Context
import DataTree.Proofs.Backend.Lawful
import DataTree.Proofs.Outcome

namespace DataTree

theorem Slot.edit_error {S : Type} {slot : Slot S} {key : Key} {change : EStateM Error S Unit}
    {e : Error} {t : S} (h : slot.edit key change = .error e t) :
    ∃ e' node, change slot.node = .error e' node ∧ t = slot.refill node := by
  rw [Slot.edit] at h
  split at h
  next => cases h
  next e' node hc =>
    cases h
    exact ⟨e', node, hc, rfl⟩

namespace Backend

/-- Every write through which values reach a tree. The writers are arbitrary: they may be those of
raw values or of lists of them, and the contextual ones take any context. -/
structure AtomicWrites (S : Type) [Backend S] : Prop where
  setAt : ∀ {value node node' : S} {merge : Bool} {path : Path} {e : Error},
    setAt value merge path node = .error e node' → node' = node
  store : ∀ {α κ : Type} [KeySpace κ] (w : Writer S α) {keys : List κ} {x : α}
    {tree tree' : S} {e : Error}, w.store keys x tree = .error e tree' → tree' = tree
  storeOptional : ∀ {α κ : Type} [KeySpace κ] (w : Writer S α) {keys : List κ} {x : Option α}
    {tree tree' : S} {e : Error}, w.storeOptional keys x tree = .error e tree' → tree' = tree
  storeInContext : ∀ {C α κ : Type} [KeySpace κ] (w : ContextWriter S C α) {context : C}
    {keys : List κ} {x : α} {tree tree' : S} {e : Error},
    w.store keys context x tree = .error e tree' → tree' = tree
  storeIn : ∀ {C α κ : Type} [KeySpace κ] (w : ContextWriter S C α) {keys : List κ} {x : α}
    {mapper mapper' : Contextual S C} {e : Error},
    w.storeIn keys x mapper = .error e mapper' → mapper' = mapper

variable {S α κ : Type} [Backend S] [LawfulBackend S] [KeySpace κ]

theorem mergeFields_ok {source node : S} (hs : HoldsFields source) (hn : HoldsFields node)
    (names : List String) : ∃ node', mergeFields names source node = .ok () node' := by
  induction names generalizing source node with
  | nil => exact ⟨node, rfl⟩
  | cons name names ih =>
      obtain ⟨found, source', hremove, hs'⟩ := LawfulBackend.removeField_ok hs name
      rw [mergeFields, hremove]
      cases found with
      | none => exact ih hs' hn
      | some child =>
          obtain ⟨node', hinsert, hn'⟩ := LawfulBackend.insertField_ok hn name child
          obtain ⟨result, hresult⟩ := ih hs' hn'
          exact ⟨result, run_bind_eq_ok.2 ⟨(), node', hinsert, hresult⟩⟩

theorem mergeObject_ok {source node : S} (hs : kind source = .object) (hn : kind node = .object) :
    ∃ node', mergeObject source node = .ok () node' :=
  mergeFields_ok (LawfulBackend.holdsFields hs) (LawfulBackend.holdsFields hn) _

theorem setAt_target_ok (value : S) (merge : Bool) (node : S) :
    ∃ node', setAt value merge [] node = .ok () node' := by
  rw [setAt]
  split
  next h =>
    simp only [Bool.and_eq_true, beq_iff_eq] at h
    obtain ⟨node', hm⟩ := mergeObject_ok h.2 h.1.2
    rw [hm]
    exact ⟨node', rfl⟩
  next => exact ⟨_, rfl⟩

theorem setAt_error {value node node' : S} {merge : Bool} {path : Path} {e : Error}
    (h : setAt value merge path node = .error e node') : node' = node := by
  induction path generalizing node node' e with
  | nil =>
      obtain ⟨result, hresult⟩ := setAt_target_ok value merge node
      rw [hresult] at h
      cases h
  | cons key rest ih =>
      cases key with
      | index i =>
          rw [setAt] at h
          split at h
          next =>
            cases h
            rfl
          next =>
            cases h
            rfl
          next slot hslot =>
            obtain ⟨e', below, hbelow, rfl⟩ := Slot.edit_error h
            rw [ih hbelow]
            exact LawfulBackend.itemSlot_refill hslot
      | name name =>
          unfold setAt at h
          split at h
          next =>
            cases h
            rfl
          next slot hslot =>
            obtain ⟨e', below, hbelow, rfl⟩ := Slot.edit_error h
            rw [ih hbelow]
            exact LawfulBackend.fieldSlot_refill hslot
          next =>
            -- the branch is built beside the node, so only its insertion could touch it
            dsimp only at h
            split at h
            next =>
              cases h
              rfl
            next =>
              split at h
              next => cases h
              next hinsert =>
                cases h
                exact LawfulBackend.insertField_error hinsert

theorem write_error {made : Except Error S} {keys : List κ} {tree tree' : S} {e : Error}
    (h : Mapper.write keys made tree = .error e tree') : tree' = tree := by
  cases made with
  | error e =>
      cases h
      rfl
  | ok node =>
      rw [Mapper.write] at h
      split at h
      next => cases h
      next hset =>
        cases h
        exact setAt_error hset

theorem storeOptional_error (w : Writer S α) {keys : List κ} {x : Option α} {tree tree' : S}
    {e : Error} (h : w.storeOptional keys x tree = .error e tree') : tree' = tree := by
  cases x with
  | none => cases h
  | some x => exact write_error h

theorem storeIn_error {C : Type} (w : ContextWriter S C α) {keys : List κ} {x : α}
    {mapper mapper' : Contextual S C} {e : Error}
    (h : w.storeIn keys x mapper = .error e mapper') : mapper' = mapper := by
  rw [ContextWriter.storeIn, Contextual.onTree] at h
  split at h
  next => cases h
  next hstore =>
    cases h
    rw [write_error hstore]

theorem atomicWrites : AtomicWrites S where
  setAt h := setAt_error h
  store _ := write_error
  storeOptional w := storeOptional_error w
  storeInContext _ := write_error
  storeIn w := storeIn_error w

/-- On every backend a write that fails, for whatever reason and at whatever depth, leaves the tree
as it was before. -/
theorem failed_write_unchanged :
    AtomicWrites Value ∧ AtomicWrites Json ∧ AtomicWrites Xml.Node :=
  ⟨atomicWrites, atomicWrites, atomicWrites⟩

/-- A list that would have to be made longer, behind fields that would have to be made as well. -/
theorem failed_write_unchanged_branch :
    let tree : Xml.Node := .element "r" [] [.element "a" [] [] "1"] ""
    let path : Path := [.name "b", .name "c", .index 0]
    let stored := (Writer.prim .bool).store path true tree
    ∃ e, stored = .error e tree := by
  intro tree path stored
  obtain ⟨e, tree', h⟩ : ∃ e tree', stored = .error e tree' := ⟨_, _, rfl⟩
  obtain rfl : tree' = tree := failed_write_unchanged.2.2.store _ h
  exact ⟨e, h⟩

end Backend

end DataTree
