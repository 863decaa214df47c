import DataTree.Proofs.Backend.Coherent
import DataTree.Proofs.Backend.FirstFailure
import DataTree.Proofs.Mapping.Types

namespace DataTree

open Backend (Before child)

theorem Reader.require_nil {S α κ : Type} [Backend S] [KeySpace κ] (r : Reader S α) (node : S) :
    r.require ([] : List κ) node =
      if r.absent node then .error (.root .valueNotFound) else r.read node := by
  have hroot : Backend.get node (KeySpace.path ([] : List κ)) = .ok (some node) := rfl
  rw [Reader.require_of_some hroot]
  split
  next => rfl
  next => cases r.read node <;> rfl

namespace MappedType

def Plain : MappedType → Prop
  | prim _ => True
  | list item => item.Plain
  | option content => content.Plain
  | value | record _ => False

def component : MappedType → Key → Option MappedType
  | list item, .index _ => some item
  | option content, key => content.component key
  | _, _ => none

variable {S : Type} [Backend S]

def failure (t : MappedType) (node : S) : Option Error :=
  failed? (t.reader.require ([] : List Key) node)

theorem failure_prim {p : Primitive} {node : S} {e : Error}
    (h : (prim p).failure node = some e) : e.path = [] := by
  have h := failed?_eq_some.1 h
  rw [Reader.require_nil] at h
  split at h
  next =>
    cases h
    rfl
  next =>
    rw [reader, Reader.prim_read] at h
    cases hleaf : readLeaf p node with
    | ok x =>
        rw [hleaf] at h
        cases h
    | error fault =>
        rw [hleaf] at h
        cases h
        rfl

theorem failure_list (item : MappedType) (node : S) : (list item).failure node =
    if Reader.listAbsent node then some (.root .valueNotFound) else
      match Backend.items node with
      | none => some (.root (.expectedArray (Backend.kind node)))
      | some items => failed? (eachItem (item.reader.require ([] : List Key)) 0 items) := by
  rw [failure, Reader.require_nil, reader, Reader.list_absent, Reader.list_read]
  split
  next => rfl
  next =>
    have hread : (fun x : S => if item.reader.absent x then .error (.root .valueNotFound)
        else item.reader.read x) = item.reader.require ([] : List Key) :=
      funext fun x => (Reader.require_nil item.reader x).symm
    rw [Reader.readItems, hread]
    cases Backend.items node <;> rfl

theorem failure_option (content : MappedType) (node : S) : (option content).failure node =
    if content.reader.absent node then none else content.failure node := by
  rw [failure, failure, Reader.require_nil, Reader.require_nil, reader, Reader.option_absent,
    Reader.option_read, if_neg Bool.false_ne_true]
  split
  next => rfl
  next => exact failed?_map some _

variable [CoherentBackend S]

theorem child_ne_of_absent {t c : MappedType} {node next : S} {key : Key}
    (h : t.reader.absent node = true) (hc : t.component key = some c) :
    child node key ≠ .ok (some next) := by
  cases t with
  | list item =>
      have hnull : Backend.isNull node = true := (Bool.and_eq_true_iff.1 h).1
      exact CoherentBackend.child_ne_of_isNull hnull key next
  | option content => cases h
  | _ => cases hc

theorem ok_member {t c : MappedType} {node next : S} {key : Key} (hok : t.failure node = none)
    (hc : t.component key = some c) (hnext : child node key = .ok (some next)) :
    c.failure next = none := by
  match t with
  | .list item =>
      cases key with
      | name name => cases hc
      | index i =>
          cases hc
          rw [failure_list] at hok
          split at hok
          next => cases hok
          next =>
            split at hok
            next => cases hok
            next items hitems =>
              obtain ⟨xs, hxs⟩ := failed?_eq_none.1 hok
              exact failed?_eq_none.2 (ok_of_mem_eachItem hxs (Backend.mem_of_item hitems hnext))
  | .option content =>
      rw [failure_option] at hok
      split at hok
      next habsent => exact absurd hnext (child_ne_of_absent habsent hc)
      next => exact ok_member hok hc hnext

theorem error_member {t : MappedType} {node : S} {fault : Fault} {key : Key} {rest : Path}
    (ht : t.Plain) (h : t.failure node = some ⟨fault, key :: rest⟩) :
    (∃ next c, child node key = .ok (some next) ∧ t.component key = some c ∧
      c.failure next = some ⟨fault, rest⟩) ∧
    ∀ earlier, Before node earlier key → ∀ next c, child node earlier = .ok (some next) →
      t.component earlier = some c → c.failure next = none := by
  match t with
  | .prim p => cases failure_prim h
  | .list item =>
      rw [failure_list] at h
      split at h
      next => cases h
      next =>
        split at h
        next => cases h
        next items hitems =>
          obtain ⟨⟨i, next, rfl, hnext, hfail⟩, hfront⟩ :=
            Backend.eachItem_error hitems (failed?_eq_some.1 h)
          refine ⟨⟨next, item, hnext, rfl, failed?_eq_some.2 hfail⟩, ?_⟩
          intro earlier hearlier next c hnext hc
          cases earlier with
          | name name => cases hc
          | index j =>
              cases hc
              exact failed?_eq_none.2 (hfront j hearlier next hnext)
  | .option content =>
      rw [failure_option] at h
      split at h
      next => cases h
      next => exact error_member (t := content) ht h

theorem plain_component {t c : MappedType} {key : Key} (ht : t.Plain)
    (hc : t.component key = some c) : c.Plain := by
  match t with
  | .list item =>
      cases key with
      | name name => cases hc
      | index i =>
          cases hc
          exact ht
  | .option content => exact plain_component (t := content) ht hc

theorem compositional : Backend.Compositional component (failure (S := S)) Plain where
  closed := plain_component
  ok _ := ok_member
  error := error_member

end MappedType

end DataTree
