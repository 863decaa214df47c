import DataTree.Json
import DataTree.Proofs.Coding.Decoded
import DataTree.Proofs.Mapping.Failure

namespace DataTree

open Backend (Before FirstFailure child)

namespace Codable

section Entries

variable {α : Type}

theorem eachEntry_cons_eq_ok {f : String → Except Error α} {name : String} {names : List String}
    {entries : List (String × α)} : eachEntry f (name :: names) = .ok entries ↔
      ∃ x rest, f name = .ok x ∧ eachEntry f names = .ok rest ∧ entries = (name, x) :: rest := by
  rw [eachEntry]
  simp only [bind_eq_ok, mapError_eq_ok, pure, Except.pure, Except.ok.injEq]
  constructor
  · rintro ⟨x, hx, rest, hrest, rfl⟩
    exact ⟨x, rest, hx, hrest, rfl⟩
  · rintro ⟨x, rest, hx, hrest, rfl⟩
    exact ⟨x, hx, rest, hrest, rfl⟩

theorem eachEntry_eq_ok {f : String → Except Error α} {names : List String}
    {entries : List (String × α)} : eachEntry f names = .ok entries ↔
      Fields.names entries = names ∧ ∀ entry ∈ entries, f entry.1 = .ok entry.2 := by
  constructor
  · intro h
    induction names generalizing entries with
    | nil =>
        cases h
        exact ⟨rfl, List.forall_mem_nil _⟩
    | cons name names ih =>
        obtain ⟨x, rest, hx, hrest, rfl⟩ := eachEntry_cons_eq_ok.1 h
        obtain ⟨hnames, hall⟩ := ih hrest
        exact ⟨by rw [Fields.names_cons, hnames], List.forall_mem_cons.2 ⟨hx, hall⟩⟩
  · rintro ⟨rfl, hall⟩
    exact eachEntry_names hall

theorem ok_of_mem_eachEntry {f : String → Except Error α} {names : List String}
    {entries : List (String × α)} (h : eachEntry f names = .ok entries) {name : String}
    (hname : name ∈ names) : ∃ x, f name = .ok x := by
  induction names generalizing entries with
  | nil => cases hname
  | cons first names ih =>
      obtain ⟨x, rest, hx, hrest, rfl⟩ := eachEntry_cons_eq_ok.1 h
      rcases List.mem_cons.1 hname with rfl | hname
      · exact ⟨x, hx⟩
      · exact ih hrest hname

theorem eachEntry_eq_error {f : String → Except Error α} {names : List String} {e : Error}
    (h : eachEntry f names = .error e) :
    ∃ front name back e', names = front ++ name :: back ∧ (∀ other ∈ front, ∃ x, f other = .ok x) ∧
      f name = .error e' ∧ e = e'.within [.name name] := by
  induction names with
  | nil => cases h
  | cons name names ih =>
      cases hname : f name with
      | error e' =>
          rw [eachEntry, hname] at h
          cases h
          exact ⟨[], name, names, e', rfl, List.forall_mem_nil _, hname, rfl⟩
      | ok x =>
          have hrest : eachEntry f names = .error e := by
            rw [eachEntry, hname] at h
            cases hnames : eachEntry f names with
            | error e' =>
                rw [hnames] at h
                exact h
            | ok entries =>
                rw [hnames] at h
                cases h
          obtain ⟨front, other, back, e', rfl, hfront, hother, rfl⟩ := ih hrest
          exact ⟨name :: front, other, back, e', rfl, List.forall_mem_cons.2 ⟨⟨x, hname⟩, hfront⟩,
            hother, rfl⟩

variable {S : Type} [Backend S] {f : S → Except Error α} {node next : S}

theorem readField_of_child {name : String} (h : child node (.name name) = .ok (some next)) :
    readField f node name = f next := by
  change Backend.field node name = _ at h
  rw [readField, h]

variable [CoherentBackend S]

theorem readEntries_error {fault : Fault} {key : Key} {rest : Path}
    (h : readEntries f node = .error ⟨fault, key :: rest⟩) :
    (∃ name next, key = .name name ∧ child node (.name name) = .ok (some next) ∧
      f next = .error ⟨fault, rest⟩) ∧
    ∀ name, Before node (.name name) key → ∀ next, child node (.name name) = .ok (some next) →
      ∃ x, f next = .ok x := by
  have hall : eachEntry (readField f node) (Backend.fieldNames node) =
      .error ⟨fault, key :: rest⟩ := by
    rw [readEntries] at h
    split at h
    next => exact h
    next => cases h
  obtain ⟨front, name, back, e, hnames, hfront, hname, he⟩ := eachEntry_eq_error hall
  cases he
  have hmem : name ∈ Backend.fieldNames node := by
    rw [hnames]
    exact List.mem_append_right _ List.mem_cons_self
  obtain ⟨inner, hinner⟩ := CoherentBackend.mem_fieldNames.1 hmem
  have hread : readField f node name = f inner := readField_of_child hinner
  refine ⟨⟨name, inner, rfl, hinner, hread.symm.trans hname⟩, fun other hother next hnext => ?_⟩
  have hin : other ∈ front := by
    have hlisted : other ∈ (Backend.fieldNames node).takeWhile (· ≠ name) := hother
    rw [hnames, List.takeWhile_append] at hlisted
    split at hlisted
    next => simpa using hlisted
    next => exact (List.takeWhile_sublist _).mem hlisted
  obtain ⟨x, hx⟩ := hfront other hin
  exact ⟨x, (readField_of_child hnext).symm.trans hx⟩

theorem readEntries_ok {entries : List (String × α)} (h : readEntries f node = .ok entries)
    {name : String} (hnext : child node (.name name) = .ok (some next)) : ∃ x, f next = .ok x := by
  rw [readEntries] at h
  split at h
  next =>
    have hmem : name ∈ Backend.fieldNames node := CoherentBackend.mem_fieldNames.2 ⟨next, hnext⟩
    obtain ⟨x, hx⟩ := ok_of_mem_eachEntry h hmem
    exact ⟨x, (readField_of_child hnext).symm.trans hx⟩
  next => cases h

end Entries

/-- Types made of primitives, lists, options, boxes and maps. -/
def Typed : Codable Empty → Prop
  | prim _ => True
  | value => False
  | list content | option content | boxed content => content.Typed
  | sortedMap content | dictionary content => content.Typed
  | custom x => x.elim

def component : Codable Empty → Key → Option (Codable Empty)
  | list item, .index _ => some item
  | option content, key | boxed content, key => content.component key
  | sortedMap content, .name _ | dictionary content, .name _ => some content
  | _, _ => none

theorem typed_component {t c : Codable Empty} {key : Key} (ht : t.Typed)
    (hc : t.component key = some c) : c.Typed := by
  induction t with
  | option content ih => exact ih ht hc
  | boxed content ih => exact ih ht hc
  | list item =>
      cases key <;> cases hc
      exact ht
  | sortedMap content | dictionary content =>
      cases key <;> cases hc
      exact ht
  | _ => cases hc

section Failures

variable {S U : Type} [Backend S]

def failure (naming : Naming) (user : U) (t : Codable Empty) (node : S) : Option Error :=
  failed? (t.ofTree (D := fun y => y.elim) (fun y => y.elim) naming user node).1

abbrev reading (t : Codable Empty) (node : S) : Except Error (t.Carrier fun y => y.elim) :=
  t.read (fun y => y.elim) node

theorem failure_eq [LawfulBackend S] (naming : Naming) (user : U) (t : Codable Empty) (node : S) :
    failure naming user t node = failed? (t.reading node) := by
  rw [failure, ofTree_eq_read]

theorem path_readPrim {p : Primitive} {node : S} {e : Error}
    (h : readPrim p node = .error e) : e.path = [] := by
  rw [readPrim] at h
  split at h
  next =>
    cases h
    rfl
  next =>
    cases hleaf : readLeaf p node with
    | ok x =>
        rw [hleaf] at h
        cases h
    | error fault =>
        rw [hleaf] at h
        cases h
        rfl

theorem reading_option (content : Codable Empty) (node : S) :
    failed? (content.option.reading node) =
      if Backend.isNull node then none else failed? (content.reading node) := by
  show failed? (if Backend.isNull node then .ok none else (content.reading node).map some) = _
  split
  next => rfl
  next => exact failed?_map some _

variable [CoherentBackend S] {node next : S} {key : Key}

theorem ok_member {t c : Codable Empty} (hok : failed? (t.reading node) = none)
    (hc : t.component key = some c) (hnext : child node key = .ok (some next)) :
    failed? (c.reading next) = none := by
  induction t with
  | list item =>
      cases key <;> cases hc
      obtain ⟨xs, hxs⟩ := failed?_eq_none.1 hok
      rw [reading, read, readItems] at hxs
      split at hxs
      next items hitems =>
        exact failed?_eq_none.2 (ok_of_mem_eachItem hxs (Backend.mem_of_item hitems hnext))
      next => cases hxs
  | option content ih =>
      rw [reading_option] at hok
      split at hok
      next hnull => exact absurd hnext (CoherentBackend.child_ne_of_isNull hnull key next)
      next => exact ih hok hc
  | boxed content ih => exact ih hok hc
  | sortedMap content | dictionary content =>
      cases key <;> cases hc
      obtain ⟨entries, hentries⟩ := failed?_eq_none.1 ((failed?_map _ _).symm.trans hok)
      exact failed?_eq_none.2 (readEntries_ok hentries hnext)
  | _ => cases hc

theorem error_member {t : Codable Empty} (ht : t.Typed) {fault : Fault} {rest : Path}
    (h : failed? (t.reading node) = some ⟨fault, key :: rest⟩) :
    (∃ next c, child node key = .ok (some next) ∧ t.component key = some c ∧
      failed? (c.reading next) = some ⟨fault, rest⟩) ∧
    ∀ earlier, Before node earlier key → ∀ next c, child node earlier = .ok (some next) →
      t.component earlier = some c → failed? (c.reading next) = none := by
  induction t with
  | prim p => cases path_readPrim (failed?_eq_some.1 h)
  | value => cases ht
  | list item =>
      have h := failed?_eq_some.1 h
      rw [reading, read, readItems] at h
      split at h
      next items hitems =>
        obtain ⟨⟨i, next, rfl, hnext, hfail⟩, hfront⟩ := Backend.eachItem_error hitems h
        refine ⟨⟨next, item, hnext, rfl, failed?_eq_some.2 hfail⟩, ?_⟩
        intro earlier hearlier next c hnext hc
        cases earlier <;> cases hc
        exact failed?_eq_none.2 (hfront _ hearlier next hnext)
      next => cases h
  | option content ih =>
      rw [reading_option] at h
      split at h
      next => cases h
      next => exact ih ht h
  | boxed content ih => exact ih ht h
  | sortedMap content | dictionary content =>
      have h := failed?_eq_some.1 ((failed?_map _ _).symm.trans h)
      obtain ⟨⟨name, next, rfl, hnext, hfail⟩, hfront⟩ := readEntries_error h
      refine ⟨⟨next, content, hnext, rfl, failed?_eq_some.2 hfail⟩, ?_⟩
      intro earlier hearlier next c hnext hc
      cases earlier <;> cases hc
      exact failed?_eq_none.2 (hfront _ hearlier next hnext)
  | custom x => exact x.elim

theorem compositional (naming : Naming) (user : U) :
    Backend.Compositional component (failure (S := S) naming user) Typed where
  closed := typed_component
  ok _ hok hc hnext := by
    rw [failure_eq] at hok ⊢
    exact ok_member hok hc hnext
  error ht h := by
    simp only [failure_eq] at h ⊢
    exact error_member ht h

end Failures

end Codable

/-- On every backend, decoding a type fails at the first node in document order that does not fit
the component of the type there, and so does mapping a type at the root. -/
theorem fails_at_first_misfit {U : Type} (naming : Naming) (user : U) :
    (∀ t : Codable Empty, t.Typed →
      (∀ tree : Value, FirstFailure Codable.component (Codable.failure naming user) t tree) ∧
      (∀ tree : Json, FirstFailure Codable.component (Codable.failure naming user) t tree) ∧
      ∀ tree : Xml.Node, FirstFailure Codable.component (Codable.failure naming user) t tree) ∧
    ∀ t : MappedType, t.Plain →
      (∀ tree : Value, FirstFailure MappedType.component MappedType.failure t tree) ∧
      (∀ tree : Json, FirstFailure MappedType.component MappedType.failure t tree) ∧
      ∀ tree : Xml.Node, FirstFailure MappedType.component MappedType.failure t tree :=
  ⟨fun _ ht => ⟨(Codable.compositional naming user).firstFailure ht,
      (Codable.compositional naming user).firstFailure ht,
      (Codable.compositional naming user).firstFailure ht⟩,
    fun _ ht => ⟨MappedType.compositional.firstFailure ht,
      MappedType.compositional.firstFailure ht, MappedType.compositional.firstFailure ht⟩⟩

/-- A wrong item in the second field of an object behind a null, and a text for a list behind a list
with a null in it. -/
theorem fails_at_first_misfit_nested :
    let t : Codable Empty := .list (.option (.sortedMap (.boxed (.list (.prim .bool)))))
    let tree : Value :=
      .array [Value.null, .object [("a", .array []), ("b", .array [Value.bool true, Value.int 1])]]
    let fault : Fault := .typeMismatch "bool" (.scalar .int)
    let mapped : MappedType := .list (.list (.option (.prim .string)))
    let node : Xml.Node := .element "r" [] [.element "a" [] [.empty] "", .text "b"] ""
    t.Typed ∧ Codable.failure .identity () t tree =
        some ⟨fault, [.index 1, .name "b", .index 1]⟩ ∧
      (∃ inner c, Backend.get tree [.index 1, .name "b", .index 1] = .ok (some inner) ∧
        Backend.componentAt Codable.component t [.index 1, .name "b", .index 1] = some c ∧
        Codable.failure .identity () c inner = some ⟨fault, []⟩) ∧
      Codable.failure .identity () (.boxed (.list (.prim .bool))) (Tree.array [] : Value) = none ∧
      mapped.Plain ∧ mapped.failure node =
        some ⟨.expectedArray (.scalar .string), [.index 1]⟩ ∧
      MappedType.failure (.option (.prim .string)) Xml.Node.empty = none := by
  intro t tree fault mapped node
  have hfail : Codable.failure .identity () t tree =
      some ⟨fault, [.index 1, .name "b", .index 1]⟩ := by
    rw [Codable.failure_eq]
    rfl
  have hmapped : mapped.failure node =
      some ⟨.expectedArray (.scalar .string), [.index 1]⟩ := rfl
  have hbefore : Backend.Precedes tree [.index 1, .name "a"] [.index 1, .name "b", .index 1] :=
    ⟨[.index 1], _, .name "a", .name "b", rfl, List.mem_singleton_self _, List.prefix_rfl,
      [.index 1], rfl⟩
  have habove : Backend.Precedes node [.index 0, .index 0] [.index 1] :=
    ⟨[], _, .index 0, .index 1, rfl, Nat.zero_lt_one, ⟨[.index 0], rfl⟩, List.prefix_rfl⟩
  obtain ⟨hdecoded, hmapping⟩ := fails_at_first_misfit .identity ()
  obtain ⟨hhere, hfront⟩ := (hdecoded t trivial).1 tree _ _ hfail
  obtain ⟨-, hmember⟩ := (hmapping mapped trivial).2.2 node _ _ hmapped
  exact ⟨trivial, hfail, hhere, hfront _ hbefore _ _ rfl rfl, trivial, hmapped,
    hmember _ habove _ _ rfl rfl⟩

end DataTree
