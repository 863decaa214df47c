import DataTree.Proofs.Tree.Written

namespace DataTree.Backend

variable {S : Type} [Backend S]

inductive Wrote (value : S) (merge : Bool) : Path → S → S → Prop
  | target {node node' : S} :
      setAt value merge [] node = .ok () node' → Wrote value merge [] node node'
  | item {node inner : S} {index : Nat} {slot : Slot S} {rest : Path} :
      itemSlot node index = .ok (some slot) → Wrote value merge rest slot.node inner →
      Wrote value merge (.index index :: rest) node (slot.refill inner)
  | field {node inner : S} {name : String} {slot : Slot S} {rest : Path} :
      fieldSlot node name = .ok (some slot) → Wrote value merge rest slot.node inner →
      Wrote value merge (.name name :: rest) node (slot.refill inner)
  | fresh {node node' : S} {name : String} : fieldSlot node name = .ok none →
      insertField name value node = .ok () node' → Wrote value merge [.name name] node node'
  | branch {node branch node' : S} {name : String} {next : Key} {rest : Path} :
      fieldSlot node name = .ok none → Wrote value merge (next :: rest) (emptyFor next) branch →
      insertField name branch node = .ok () node' →
      Wrote value merge (.name name :: next :: rest) node node'

theorem wrote_of_setAt {value node node' : S} {merge : Bool} {path : Path}
    (h : setAt value merge path node = .ok () node') : Wrote value merge path node node' := by
  induction path generalizing node node' with
  | nil => exact .target h
  | cons key rest ih =>
      cases key with
      | index i =>
          rw [setAt] at h
          split at h
          next => cases h
          next => cases h
          next slot hslot =>
            obtain ⟨inner, hinner, rfl⟩ := Slot.edit_ok h
            exact .item hslot (ih hinner)
      | name name =>
          unfold setAt at h
          split at h
          next => cases h
          next slot hslot =>
            obtain ⟨inner, hinner, rfl⟩ := Slot.edit_ok h
            exact .field hslot (ih hinner)
          next hslot =>
            dsimp only at h
            split at h
            next => cases h
            next branch hbranch =>
              split at h
              next hinsert =>
                cases h
                cases rest with
                | nil =>
                    cases hbranch
                    exact .fresh hslot hinsert
                | cons next rest => exact .branch hslot (ih hbranch) hinsert
              next => cases h

theorem setAt_merge {value : S} (h : kind value ≠ .object) (path : Path) :
    setAt value true path = setAt value false path := by
  induction path with
  | nil =>
      funext node
      simp [setAt, h]
  | cons key rest ih =>
      funext node
      cases key with
      | index i => simp only [setAt, ih]
      | name name =>
          cases rest with
          | nil => simp [setAt, h]
          | cons next rest => simp only [setAt, ih]

end DataTree.Backend
