import DataTree.Navigation

namespace DataTree.Backend

variable {S : Type} [Backend S]

inductive Erased : Path → S → S → Prop
  | root {node : S} : Erased [] node null
  | last {node node' : S} {name : String} {found : Option S} :
      removeField name node = .ok found node' → Erased [.name name] node node'
  | field {node inner : S} {name : String} {slot : Slot S} {next : Key} {rest : Path} :
      fieldSlot node name = .ok (some slot) → Erased (next :: rest) slot.node inner →
      Erased (.name name :: next :: rest) node (slot.refill inner)

theorem erased_of_remove {path : Path} {node node' : S} (h : remove path node = .ok node') :
    Erased path node node' := by
  induction path generalizing node node' with
  | nil =>
      cases h
      exact .root
  | cons key rest ih =>
      cases key with
      | index i => cases rest <;> cases h
      | name name =>
          cases rest with
          | nil =>
              rw [remove] at h
              split at h
              next hremove =>
                cases h
                exact .last hremove
              next => cases h
          | cons next rest =>
              cases hkind : kind node with
              | object =>
                  simp only [remove, hkind] at h
                  split at h
                  next => cases h
                  next => cases h
                  next slot hslot =>
                    split at h
                    next inner hinner =>
                      cases h
                      exact .field hslot (ih hinner)
                    next => cases h
              | _ =>
                  simp only [remove, hkind] at h
                  cases h

end DataTree.Backend
