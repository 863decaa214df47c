import DataTree.Decoder
import DataTree.Proofs.Outcome

namespace DataTree

/-- Why a node is not taken for a container of the wanted kind: null is nothing at all. -/
def Fault.refusal (wanted : String) : Kind → Fault
  | .null => .valueNotFound
  | actual => .incompatibleType wanted actual

namespace Decoding

variable {S U : Type} [Backend S]

def request : Container → Decoding S U Unit
  | .keyed => keyed
  | .sequential => sequential
  | .single => single

def Offers (node : S) : Container → Prop
  | .keyed => Backend.kind node = .object
  | .sequential => (Backend.items node).isSome
  | .single => True

theorem keyed_eq (d : Decoder S U) : keyed d =
    if Backend.kind d.current.node = .object then claim .keyed d
    else fail (Fault.refusal "object" (Backend.kind d.current.node)) d := by
  rw [keyed, run_get_bind]
  cases Backend.kind d.current.node <;> rfl

theorem sequential_eq (d : Decoder S U) : sequential d =
    match Backend.items d.current.node with
    | some _ => claim .sequential d
    | none => fail (Fault.refusal "array" (Backend.kind d.current.node)) d := by
  rw [sequential, run_get_bind]
  cases Backend.items d.current.node with
  | some items => rfl
  | none => cases Backend.kind d.current.node <;> rfl

theorem request_of_offers {c : Container} {d : Decoder S U} (h : Offers d.current.node c) :
    request c d = claim c d := by
  cases c with
  | keyed => exact (keyed_eq d).trans (if_pos h)
  | sequential =>
      obtain ⟨items, hitems⟩ := Option.isSome_iff_exists.1 h
      show sequential d = _
      rw [sequential_eq, hitems]
  | single => rfl

theorem request_of_not_offers {c : Container} {d : Decoder S U} (h : ¬ Offers d.current.node c) :
    ∃ e, request c d = .error e d := by
  cases c with
  | keyed => exact ⟨_, (keyed_eq d).trans (if_neg h)⟩
  | sequential =>
      have hitems : Backend.items d.current.node = none := Option.not_isSome_iff_eq_none.1 h
      show ∃ e, sequential d = _
      rw [sequential_eq, hitems]
      exact ⟨_, rfl⟩
  | single => exact absurd trivial h

/-- A request is granted where the shape allows for it and no other one was before, and takes the
claim; every other request leaves the level as it was. -/
theorem request_cases (c : Container) (d : Decoder S U) :
    (Offers d.current.node c ∧ d.current.claimed = false ∧
      request c d = .ok () { d with current := { d.current with claimed := true } }) ∨
    ((¬ Offers d.current.node c ∨ d.current.claimed = true) ∧ ∃ e, request c d = .error e d) := by
  by_cases hoffers : Offers d.current.node c
  · rw [request_of_offers hoffers, claim]
    cases hclaimed : d.current.claimed with
    | false => exact .inl ⟨hoffers, rfl, rfl⟩
    | true => exact .inr ⟨.inr rfl, _, rfl⟩
  · exact .inr ⟨.inl hoffers, request_of_not_offers hoffers⟩

theorem request_eq_ok_iff {c : Container} {d : Decoder S U} :
    (∃ d', request c d = .ok () d') ↔ Offers d.current.node c ∧ d.current.claimed = false := by
  rcases request_cases c d with ⟨hoffers, hclaimed, hrun⟩ | ⟨hnot, e, hrun⟩
  · exact iff_of_true ⟨_, hrun⟩ ⟨hoffers, hclaimed⟩
  · refine iff_of_false (fun ⟨d', h⟩ => ?_) fun ⟨hoffers, hclaimed⟩ => ?_
    · rw [hrun] at h
      cases h
    · rcases hnot with hnot | hused
      · exact hnot hoffers
      · exact Bool.false_ne_true (hclaimed.symm.trans hused)

theorem claimed_of_request {c : Container} {d d' : Decoder S U} (h : request c d = .ok () d') :
    d'.current.claimed = true := by
  rcases request_cases c d with ⟨-, -, hrun⟩ | ⟨-, e, hrun⟩ <;> rw [hrun] at h <;> cases h
  rfl

theorem eq_of_request_error {c : Container} {d d' : Decoder S U} {e : Error}
    (h : request c d = .error e d') : d' = d := by
  rcases request_cases c d with ⟨-, -, hrun⟩ | ⟨-, e', hrun⟩ <;> rw [hrun] at h <;> cases h
  rfl

theorem path_of_request_error {c : Container} {d d' : Decoder S U} {e : Error}
    (h : request c d = .error e d') : e.path = d.path := by
  have hfail {fault : Fault} (hf : (fail fault : Decoding S U Unit) d = .error e d') :
      e.path = d.path := by
    cases hf
    exact List.append_nil d.path
  have hclaim {c : Container} (hc : claim c d = .error e d') : e.path = d.path := by
    rw [claim] at hc
    split at hc
    next => exact hfail hc
    next => cases hc
  cases c with
  | keyed =>
      change keyed d = _ at h
      rw [keyed_eq] at h
      split at h
      next => exact hclaim h
      next => exact hfail h
  | sequential =>
      change sequential d = _ at h
      rw [sequential_eq] at h
      split at h
      next => exact hclaim h
      next => exact hfail h
  | single => exact hclaim h

theorem request_of_claimed (c : Container) {d : Decoder S U} (h : d.current.claimed = true) :
    ∃ e, request c d = .error e d := by
  rcases request_cases c d with ⟨-, hfree, -⟩ | ⟨-, hrefused⟩
  · exact absurd (hfree.symm.trans h) Bool.false_ne_true
  · exact hrefused

end Decoding

end DataTree
