import DataTree.Proofs.Backend.Lawful
import DataTree.Proofs.Outcome

namespace DataTree

/-- The node is of a kind that has no member under the key. -/
def Key.mismatch (key : Key) (got : Kind) : Fault :=
  match key with
  | .name _ => .expectedObject got
  | .index _ => .expectedArray got

namespace Backend

variable {S : Type} [Backend S] {node inner : S} {key : Key} {path : Path}

theorem get_cons (h : child node key = .ok (some inner)) (rest : Path) :
    get node (key :: rest) = (get inner rest).mapError (Error.within [key]) := by
  rw [get, h]

theorem get_congr {node' : S} (h : child node' key = child node key) (rest : Path) :
    get node' (key :: rest) = get node (key :: rest) := by
  rw [get, get, h]

theorem get_cons_eq_some {rest : Path} : get node (key :: rest) = .ok (some inner) ↔
    ∃ next, child node key = .ok (some next) ∧ get next rest = .ok (some inner) := by
  rw [get]
  split
  next h => simp [h]
  next h => simp [h]
  next next h => simp [h]

theorem get_append_eq (node : S) (path rest : Path) :
    get node (path ++ rest) = match get node path with
      | .error e => .error e
      | .ok none => .ok none
      | .ok (some inner) => (get inner rest).mapError (Error.within path) := by
  induction path generalizing node with
  | nil =>
      show get node rest = (get node rest).mapError (Error.within [])
      cases get node rest <;> rfl
  | cons key path ih =>
      rw [List.cons_append, get, get]
      rcases child node key with fault | _ | next
      · rfl
      · rfl
      · dsimp only
        rw [ih]
        rcases get next path with e | _ | inner
        · rfl
        · rfl
        · exact mapError_within [key] path _

theorem get_append (h : get node path = .ok (some inner)) (rest : Path) :
    get node (path ++ rest) = (get inner rest).mapError (Error.within path) := by
  rw [get_append_eq, h]

theorem get_append_eq_some {rest : Path} : get node (path ++ rest) = .ok (some inner) ↔
    ∃ w, get node path = .ok (some w) ∧ get w rest = .ok (some inner) := by
  rw [get_append_eq]
  split
  next h => simp [h]
  next h => simp [h]
  next w h => simp [h]

theorem exists_furthest (node : S) (path : Path) :
    (∃ w, get node path = .ok (some w)) ∨
      ∃ front key back w, path = front ++ key :: back ∧ get node front = .ok (some w) ∧
        ∀ next, child w key ≠ .ok (some next) := by
  induction path generalizing node with
  | nil => exact .inl ⟨node, rfl⟩
  | cons key rest ih =>
      by_cases hnext : ∃ next, child node key = .ok (some next)
      · obtain ⟨next, hnext⟩ := hnext
        rcases ih next with ⟨w, hw⟩ | ⟨front, last, back, w, rfl, hw, hlast⟩
        · exact .inl ⟨w, get_cons_eq_some.2 ⟨next, hnext, hw⟩⟩
        · exact .inr ⟨key :: front, last, back, w, rfl, get_cons_eq_some.2 ⟨next, hnext, hw⟩, hlast⟩
      · exact .inr ⟨[], key, rest, node, rfl, rfl, not_exists.1 hnext⟩

theorem get_of_refused {fault : Fault} (h : child node key = .error fault) (rest : Path) :
    get node (key :: rest) = .error ⟨fault, [key]⟩ := by
  rw [get, h]

def memberSlot (node : S) : Key → Except Fault (Option (Slot S))
  | .name name => fieldSlot node name
  | .index index => itemSlot node index

/-- Every key of the path leads on to a member in its place; the slot is the place of the last one
within the whole tree. -/
inductive Leads : Path → S → Slot S → Prop
  | here {node : S} : Leads [] node ⟨node, id⟩
  | step {node : S} {key : Key} {member inner : Slot S} {rest : Path} :
      memberSlot node key = .ok (some member) → Leads rest member.node inner →
      Leads (key :: rest) node ⟨inner.node, fun x => member.refill (inner.refill x)⟩

theorem Leads.refill_node [LawfulBackend S] {slot : Slot S} (h : Leads path node slot) :
    slot.refill slot.node = node := by
  induction h with
  | here => rfl
  | @step node key member inner rest hmember _ ih =>
      show member.refill (inner.refill inner.node) = node
      rw [ih]
      cases key with
      | name name => exact LawfulBackend.fieldSlot_refill hmember
      | index i => exact LawfulBackend.itemSlot_refill hmember

section Writing

variable {value : S} {merge : Bool}

theorem setAt_member {member : Slot S} (h : memberSlot node key = .ok (some member))
    (rest : Path) :
    setAt value merge (key :: rest) node = member.edit key (setAt value merge rest) := by
  cases key with
  | name name =>
      change fieldSlot node name = _ at h
      unfold setAt
      rw [h]
  | index index =>
      change itemSlot node index = _ at h
      rw [setAt, h]

theorem setAt_of_refused {fault : Fault} (h : memberSlot node key = .error fault) (rest : Path) :
    setAt value merge (key :: rest) node = .error ⟨fault, [key]⟩ node := by
  cases key with
  | name name =>
      change fieldSlot node name = _ at h
      unfold setAt
      rw [h]
  | index index =>
      change itemSlot node index = _ at h
      rw [setAt, h]

theorem setAt_through {slot : Slot S} (h : Leads path node slot) (rest : Path) :
    setAt value merge (path ++ rest) node =
      match setAt value merge rest slot.node with
      | .ok () x => .ok () (slot.refill x)
      | .error e x => .error (e.within path) (slot.refill x) := by
  induction h with
  | @here node =>
      rw [List.nil_append]
      cases setAt value merge rest node <;> rfl
  | @step node key member inner path hmember _ ih =>
      rw [List.cons_append, setAt_member hmember, Slot.edit, ih]
      cases setAt value merge rest inner.node <;> rfl

theorem set_through {slot : Slot S} (h : Leads path node slot) (rest : Path) :
    set node (path ++ rest) value merge =
      ((set slot.node rest value merge).map slot.refill).mapError (Error.within path) := by
  rw [set, setAt_through h, set]
  cases setAt value merge rest slot.node <;> rfl

theorem set_of_refused {slot : Slot S} {fault : Fault} (h : Leads path node slot)
    (hkey : memberSlot slot.node key = .error fault) (rest : Path) :
    set node (path ++ key :: rest) value merge = .error ⟨fault, path ++ [key]⟩ := by
  rw [set_through h, set, setAt_of_refused hkey]
  rfl

end Writing

theorem get_through_refused {fault : Fault} (h : get node path = .ok (some inner))
    (hkey : child inner key = .error fault) (rest : Path) :
    get node (path ++ key :: rest) = .error ⟨fault, path ++ [key]⟩ := by
  rw [get_append h, get_of_refused hkey]
  rfl

end Backend

end DataTree
