import DataTree.Proofs.Backend.Lawful
import DataTree.Proofs.Backend.Through

namespace DataTree

def failed? {ε α : Type} : Except ε α → Option ε
  | .ok _ => none
  | .error e => some e

theorem failed?_eq_some {ε α : Type} {r : Except ε α} {e : ε} :
    failed? r = some e ↔ r = .error e := by
  cases r <;> simp [failed?]

theorem failed?_eq_none {ε α : Type} {r : Except ε α} : failed? r = none ↔ ∃ x, r = .ok x := by
  cases r <;> simp [failed?]

theorem failed?_map {ε α β : Type} (f : α → β) (r : Except ε α) :
    failed? (r.map f) = failed? r := by
  cases r <;> rfl

namespace Backend

variable {S T : Type} [Backend S]

/-- The member under the one key comes before the one under the other: items by index, fields as
their names are listed. -/
def Before (node : S) : Key → Key → Prop
  | .index i, .index j => i < j
  | .name a, .name b => a ∈ (fieldNames node).takeWhile (· ≠ b)
  | _, _ => False

/-- In document order the place of the one path comes before that of the other, neither of them
within the other. -/
def Precedes (node : S) (path path' : Path) : Prop :=
  ∃ front parent key key', get node front = .ok (some parent) ∧ Before parent key key' ∧
    front ++ [key] <+: path ∧ front ++ [key'] <+: path'

theorem not_precedes_nil {node : S} {path : Path} : ¬ Precedes node path [] := by
  rintro ⟨front, parent, key, key', -, -, -, h⟩
  simp at h

theorem precedes_cons {node : S} {key : Key} {path rest : Path}
    (h : Precedes node path (key :: rest)) :
    (∃ first back, path = first :: back ∧ Before node first key) ∨
      ∃ next back, path = key :: back ∧ child node key = .ok (some next) ∧
        Precedes next back rest := by
  obtain ⟨front, parent, first, last, hget, hbefore, hpath, hlast⟩ := h
  cases front with
  | nil =>
      cases hget
      obtain ⟨back, rfl⟩ := hpath
      obtain rfl : last = key := (List.cons_prefix_cons.1 hlast).1
      exact .inl ⟨first, back, rfl, hbefore⟩
  | cons step front =>
      obtain ⟨rfl, hrest⟩ := List.cons_prefix_cons.1 hlast
      obtain ⟨next, hnext, hbelow⟩ := get_cons_eq_some.1 hget
      obtain ⟨back, rfl⟩ := hpath
      refine .inr ⟨next, front ++ [first] ++ back, rfl, hnext, ?_⟩
      exact ⟨front, parent, first, last, hbelow, hbefore, List.prefix_append _ _, hrest⟩

section Components

variable (component : T → Key → Option T)

def componentAt : T → Path → Option T
  | t, [] => some t
  | t, key :: rest => (component t key).bind (componentAt · rest)

variable (failure : T → S → Option Error)

/-- A failure of the type on the node is that of the component at its path on the node there, and
where the path is entered; no component in front of it fails. -/
def FirstFailure (t : T) (node : S) : Prop :=
  ∀ fault path, failure t node = some ⟨fault, path⟩ →
    (∃ inner c, get node path = .ok (some inner) ∧ componentAt component t path = some c ∧
      failure c inner = some ⟨fault, []⟩) ∧
    ∀ earlier, Precedes node earlier path → ∀ inner c, get node earlier = .ok (some inner) →
      componentAt component t earlier = some c → failure c inner = none

/-- How the failures of a type and those of its components for single members belong together. -/
structure Compositional (Good : T → Prop) : Prop where
  closed : ∀ {t c : T} {key : Key}, Good t → component t key = some c → Good c
  ok : ∀ {t c : T} {node next : S} {key : Key}, Good t → failure t node = none →
    component t key = some c → child node key = .ok (some next) → failure c next = none
  error : ∀ {t : T} {node : S} {fault : Fault} {key : Key} {rest : Path}, Good t →
    failure t node = some ⟨fault, key :: rest⟩ →
    (∃ next c, child node key = .ok (some next) ∧ component t key = some c ∧
      failure c next = some ⟨fault, rest⟩) ∧
    ∀ earlier, Before node earlier key → ∀ next c, child node earlier = .ok (some next) →
      component t earlier = some c → failure c next = none

namespace Compositional

variable {component failure} {Good : T → Prop} {t c : T} {node inner : S} {path : Path}

theorem ok_at (h : Compositional component failure Good) (ht : Good t)
    (hok : failure t node = none) (hget : get node path = .ok (some inner))
    (hc : componentAt component t path = some c) : failure c inner = none := by
  induction path generalizing t node with
  | nil =>
      cases hget
      cases hc
      exact hok
  | cons key rest ih =>
      obtain ⟨next, hnext, hbelow⟩ := get_cons_eq_some.1 hget
      obtain ⟨part, hpart, hc⟩ := Option.bind_eq_some_iff.1 hc
      exact ih (h.closed ht hpart) (h.ok ht hok hpart hnext) hbelow hc

theorem firstFailure (h : Compositional component failure Good) (ht : Good t) (node : S) :
    FirstFailure component failure t node := by
  intro fault path hfail
  induction path generalizing t node with
  | nil =>
      exact ⟨⟨node, t, rfl, rfl, hfail⟩, fun _ hearlier => absurd hearlier not_precedes_nil⟩
  | cons key rest ih =>
      obtain ⟨⟨next, part, hnext, hpart, hbelow⟩, hbefore⟩ := h.error ht hfail
      obtain ⟨⟨inner, c, hget, hc, hinner⟩, hfront⟩ := ih (h.closed ht hpart) next hbelow
      refine ⟨⟨inner, c, get_cons_eq_some.2 ⟨next, hnext, hget⟩,
        Option.bind_eq_some_iff.2 ⟨part, hpart, hc⟩, hinner⟩, ?_⟩
      intro earlier hearlier first c' hfirst hc'
      rcases precedes_cons hearlier with
        ⟨step, back, rfl, hstep⟩ | ⟨next', back, rfl, hnext', hback⟩
      · obtain ⟨member, hmember, hfirst⟩ := get_cons_eq_some.1 hfirst
        obtain ⟨part', hpart', hc'⟩ := Option.bind_eq_some_iff.1 hc'
        exact h.ok_at (h.closed ht hpart') (hbefore step hstep member part' hmember hpart')
          hfirst hc'
      · obtain rfl : next = next' := by simpa using hnext.symm.trans hnext'
        obtain ⟨member, hmember, hfirst⟩ := get_cons_eq_some.1 hfirst
        obtain ⟨part', hpart', hc'⟩ := Option.bind_eq_some_iff.1 hc'
        obtain rfl : next = member := by simpa using hnext.symm.trans hmember
        obtain rfl : part = part' := by simpa using hpart.symm.trans hpart'
        exact hfront back hback first c' hfirst hc'

end Compositional

end Components

section Items

variable [LawfulBackend S] {α : Type} {f : S → Except Error α} {node next : S} {items : List S}

theorem mem_of_item (hitems : Backend.items node = some items) {i : Nat}
    (h : child node (.index i) = .ok (some next)) : next ∈ items := by
  change item node i = _ at h
  rw [LawfulBackend.item_of_items hitems] at h
  exact List.mem_of_getElem? (Except.ok.inj h)

theorem eachItem_error (hitems : Backend.items node = some items) {fault : Fault} {key : Key}
    {rest : Path} (h : eachItem f 0 items = .error ⟨fault, key :: rest⟩) :
    (∃ i next, key = .index i ∧ child node (.index i) = .ok (some next) ∧
      f next = .error ⟨fault, rest⟩) ∧
    ∀ i, Before node (.index i) key → ∀ next, child node (.index i) = .ok (some next) →
      ∃ x, f next = .ok x := by
  obtain ⟨front, inner, back, e, rfl, hfront, hinner, he⟩ := eachItem_eq_error h
  rw [Nat.zero_add] at he
  cases he
  have hitem (i : Nat) : child node (.index i) = .ok (front ++ inner :: back)[i]? :=
    LawfulBackend.item_of_items hitems i
  refine ⟨⟨front.length, inner, rfl, by simp [hitem], hinner⟩, fun i hi next hnext => ?_⟩
  have hlt : i < front.length := hi
  rw [hitem, List.getElem?_append_left hlt] at hnext
  exact hfront next (List.mem_of_getElem? (Except.ok.inj hnext))

end Items

end Backend

end DataTree
