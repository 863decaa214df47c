import DataTree.Codable
import DataTree.Proofs.Backend.Lawful
import DataTree.Proofs.Decoder.Request

namespace DataTree

namespace Decoding

variable {S U α β : Type}

/-- An outcome where the decoder stands, with the way there in front of an error. -/
def given (outcome : Except Error α) : Decoding S U α := fun d =>
  match outcome with
  | .ok x => .ok x d
  | .error e => .error (e.within d.path) d

/-- From a level that was just entered the decoding gives the outcome for the node. It may use that
level up, and moves nothing else. -/
def Gives (content : Decoding S U α) (node : S) (outcome : Except Error α) : Prop :=
  ∀ d : Decoder S U, d.current = .fresh node →
    ∃ last, content d = given outcome { d with current := last }

def Takes (content : Decoding S U α) (node : S) (x : α) : Prop := content.Gives node (.ok x)

/-- The level of a node once it was claimed, with the cursor at an item. -/
def claimed (node : S) (index : Nat) : Decoder.Level S := ⟨node, true, index⟩

theorem claim_fresh (c : Container) {node : S} {d : Decoder S U} (hd : d.current = .fresh node) :
    claim c d = .ok () { d with current := claimed node 0 } := by
  rw [claim, hd]
  rfl

namespace Gives

variable {content : Decoding S U α} {node : S} {outcome : Except Error α}

theorem inside (h : content.Gives node outcome) (key : Key) (d : Decoder S U) :
    inside (some key) node content d = given (outcome.mapError (Error.within [key])) d := by
  obtain ⟨last, hrun⟩ := h (d.enter (some key) node) rfl
  have hleave : Decoder.leave (some key) { d.enter (some key) node with current := last } = d := by
    simp [Decoder.leave, Decoder.enter]
  rw [Decoding.inside, hrun]
  cases outcome with
  | ok x => exact congrArg (EStateM.Result.ok x) hleave
  | error e =>
      simp only [given, Except.mapError, Error.orAt_within, Error.within_within, Decoder.enter_path,
        Option.toList_some]
      exact congrArg (EStateM.Result.error _) hleave

theorem run (h : content.Gives node outcome) (naming : Naming) (user : U) :
    Decoding.run naming user node content = (outcome, user) := by
  obtain ⟨last, hrun⟩ := h (.start node [] naming user) rfl
  rw [Decoding.run, hrun]
  cases outcome <;> rfl

theorem map (h : content.Gives node outcome) (f : α → β) :
    (do return f (← content) : Decoding S U β).Gives node (outcome.map f) := by
  intro d hd
  obtain ⟨last, hrun⟩ := h d hd
  refine ⟨last, (run_bind_congr hrun).trans ?_⟩
  cases outcome <;> rfl

end Gives

theorem Takes.run {content : Decoding S U α} {node : S} {x : α} (h : content.Takes node x)
    (naming : Naming) (user : U) : Decoding.run naming user node content = (.ok x, user) :=
  Gives.run h naming user

end Decoding

namespace Codable

section Parts

variable {S α : Type} [Backend S]

def readPrim (p : Primitive) (node : S) : Except Error p.Carrier :=
  if Backend.isNull node then .error (.root .valueNotFound)
  else (readLeaf p node).mapError Error.root

def readItems (f : S → Except Error α) (node : S) : Except Error (List α) :=
  match Backend.items node with
  | some items => eachItem f 0 items
  | none => .error (.root (Fault.refusal "array" (Backend.kind node)))

def readField (f : S → Except Error α) (node : S) (name : String) : Except Error α :=
  match Backend.field node name with
  | .error fault => .error (.root fault)
  | .ok none => .error (.root (.keyNotFound name))
  | .ok (some child) => f child

/-- Handles the names in order; a failure carries its name. -/
def eachEntry (f : String → Except Error α) : List String → Except Error (List (String × α))
  | [] => .ok []
  | name :: names => do
    let x ← (f name).mapError (Error.within [.name name])
    return (name, x) :: (← eachEntry f names)

theorem eachEntry_names {f : String → Except Error α} {entries : List (String × α)}
    (h : ∀ entry ∈ entries, f entry.1 = .ok entry.2) :
    eachEntry f (Fields.names entries) = .ok entries := by
  induction entries with
  | nil => rfl
  | cons entry rest ih =>
      rw [Fields.names_cons, eachEntry, h entry List.mem_cons_self,
        ih fun other hm => h other (List.mem_cons_of_mem _ hm)]
      rfl

def readEntries (f : S → Except Error α) (node : S) : Except Error (List (String × α)) :=
  if Backend.kind node = .object then eachEntry (readField f node) (Backend.fieldNames node)
  else .error (.root (Fault.refusal "object" (Backend.kind node)))

end Parts

variable {X S U : Type} {D : X → Type} [Backend S]

/-- What a type reads from a node, with whatever the types of the user's own read. -/
def read (own : (x : X) → S → Except Error (D x)) : (t : Codable X) → S → Except Error (t.Carrier D)
  | prim p, node => readPrim p node
  | value, node => toValue node
  | list item, node => readItems (item.read own) node
  | option content, node =>
    if Backend.isNull node then .ok none else (content.read own node).map some
  | boxed content, node => content.read own node
  | sortedMap content, node => (readEntries (content.read own) node).map .ofEntries
  | dictionary content, node => (readEntries (content.read own) node).map .ofEntries
  | custom x, node => own x node

end Codable

namespace Decoding

open Codable (readPrim readItems readField eachEntry readEntries)

variable {S U α β : Type} [Backend S] {content : Decoding S U α} {f : S → Except Error α} {node : S}

namespace Gives

theorem prim (p : Primitive) :
    (do single; Single.decodePrimitive p : Decoding S U p.Carrier).Gives node
      (readPrim p node) := by
  intro d hd
  refine ⟨claimed node 0, ?_⟩
  simp only [single, run_bind, claim_fresh .single hd, Single.decodePrimitive, run_get, readPrim]
  by_cases hnull : Backend.isNull node
  · rw [if_pos hnull]
    exact congrFun (if_pos hnull) _
  · rw [if_neg hnull]
    refine (congrFun (if_neg hnull) _).trans ?_
    dsimp only [claimed]
    cases readLeaf p node <;> rfl

theorem value :
    (do single; Single.decodeTree : Decoding S U Value).Gives node (toValue node) := by
  intro d hd
  refine ⟨claimed node 0, ?_⟩
  simp only [single, run_bind, claim_fresh .single hd, Single.decodeTree, claimed]
  cases toValue node <;> rfl

theorem option {outcome : Except Error α} (h : content.Gives node outcome) :
    (do if ← isNull then return none else return some (← content) :
      Decoding S U (Option α)).Gives node
        (if Backend.isNull node then .ok none else outcome.map some) := by
  intro d hd
  have hnull : isNull d = .ok (Backend.isNull node) d := by
    show EStateM.Result.ok (Backend.isNull d.current.node) d = _
    rw [hd]
    rfl
  simp only [run_bind, hnull]
  cases Backend.isNull node with
  | true => exact ⟨d.current, rfl⟩
  | false => exact h.map some d hd

section Items

variable [LawfulBackend S] {items : List S}

theorem item (hitems : Backend.items node = some items) {index : Nat} {child : S}
    {outcome : Except Error α} (hchild : items[index]? = some child)
    (h : content.Gives child outcome) {d : Decoder S U} (hd : d.current = claimed node index) :
    ∃ last, Sequential.decode content d =
        given (outcome.mapError (Error.within [.index index])) { d with current := last } ∧
      ∀ x, outcome = .ok x → last = claimed node (index + 1) := by
  have hindex : Sequential.currentIndex d = .ok index d := by
    show EStateM.Result.ok d.current.cursor d = _
    rw [hd]
    rfl
  have hend : Sequential.isAtEnd d = .ok false d := by
    show EStateM.Result.ok (decide (d.current.count ≤ d.current.cursor)) d = _
    obtain ⟨hlt, -⟩ := List.getElem?_eq_some_iff.1 hchild
    have hcount : d.current.count = items.length := by
      rw [hd, Decoder.Level.count]
      simp only [claimed, hitems, Option.elim]
    rw [hcount, hd]
    exact congrArg (EStateM.Result.ok · d) (decide_eq_false (Nat.not_le_of_lt hlt))
  have hnext : Sequential.next d = .ok child d := by
    simp [Sequential.next, hend, hd, claimed, LawfulBackend.item_of_items hitems, hchild]
  simp only [Sequential.decode, run_bind, hindex, hnext, h.inside _ d]
  cases outcome with
  | ok x =>
      refine ⟨claimed node (index + 1), ?_, fun _ _ => rfl⟩
      show EStateM.Result.ok x { d with current := { d.current with cursor := _ } } = _
      rw [hd]
      rfl
  | error e => exact ⟨d.current, rfl, nofun⟩

theorem take (hitems : Backend.items node = some items) {front back : List S}
    (hall : items = front ++ back) (h : ∀ child ∈ back, content.Gives child (f child))
    {d : Decoder S U} (hd : d.current = claimed node front.length) : ∃ last,
    Sequential.take content back.length d =
      given (eachItem f front.length back) { d with current := last } := by
  induction back generalizing front d with
  | nil => exact ⟨d.current, rfl⟩
  | cons child back ih =>
      have hchild : items[front.length]? = some child := by simp [hall]
      obtain ⟨next, hfirst, hnext⟩ := item hitems hchild (h child List.mem_cons_self) hd
      rw [List.length_cons, Sequential.take, run_bind_congr hfirst, eachItem]
      cases hx : f child with
      | error e => exact ⟨next, rfl⟩
      | ok x =>
          obtain rfl := hnext x hx
          have hback : items = (front ++ [child]) ++ back := by simp [hall]
          obtain ⟨last, hrest⟩ := ih hback (fun y hy => h y (List.mem_cons_of_mem _ hy))
            (d := { d with current := claimed node (front.length + 1) })
            (by rw [List.length_append]; rfl)
          rw [List.length_append, List.length_singleton] at hrest
          refine ⟨last, (run_bind_congr hrest).trans ?_⟩
          cases eachItem f (front.length + 1) back <;> rfl

theorem list (h : ∀ child, content.Gives child (f child)) :
    (do sequential; Sequential.rest content : Decoding S U (List α)).Gives node
      (readItems f node) := by
  intro d hd
  rw [readItems]
  cases hitems : Backend.items node with
  | some items =>
      have hclaim : sequential d = .ok () { d with current := claimed node 0 } := by
        rw [sequential_eq, ← claim_fresh .sequential hd, hd]
        simp only [Decoder.Level.fresh, hitems]
      have hcount : (claimed node 0).count - 0 = items.length := by
        simp [claimed, Decoder.Level.count, hitems]
      obtain ⟨last, hrun⟩ := take hitems (List.nil_append items).symm (fun child _ => h child)
        (d := { d with current := claimed node 0 }) rfl
      refine ⟨last, ?_⟩
      simp only [run_bind, hclaim]
      show Sequential.take content ((claimed node 0).count - 0) _ = _
      rw [hcount]
      exact hrun
  | none =>
      have hrefused := sequential_eq d
      rw [hd] at hrefused
      simp only [Decoder.Level.fresh, hitems] at hrefused
      exact ⟨d.current, run_bind_of_error hrefused⟩

end Items

section Fields

theorem field (h : ∀ child, content.Gives child (f child)) (name : String) {d : Decoder S U}
    (hd : d.current.node = node) : Keyed.decodeNamed name content d =
      given ((readField f node name).mapError (Error.within [.name name])) d := by
  have hfind : Keyed.find name d = given
      ((Backend.field node name).mapError fun fault => ⟨fault, [.name name]⟩) d := by
    simp only [Keyed.find, run_get_bind, hd]
    cases Backend.field node name <;> rfl
  rw [Keyed.decodeNamed, Keyed.require, readField, bind_assoc, run_bind_congr hfind]
  cases hfield : Backend.field node name with
  | error fault => rfl
  | ok found =>
      cases found with
      | none => rfl
      | some child => exact (h child).inside (.name name) d

theorem entries (h : ∀ child, content.Gives child (f child)) (names : List String)
    {d : Decoder S U} (hd : d.current.node = node) :
    Keyed.entries content names d = given (eachEntry (readField f node) names) d := by
  induction names with
  | nil => rfl
  | cons name names ih =>
      rw [Keyed.entries, run_bind_congr (field h name hd), eachEntry]
      cases readField f node name with
      | error e => rfl
      | ok x =>
          refine (run_bind_congr ih).trans ?_
          cases eachEntry (readField f node) names <;> rfl

theorem fields (h : ∀ child, content.Gives child (f child)) (g : List (String × α) → β) :
    (do keyed; return g (← Keyed.entries content (← Keyed.names)) : Decoding S U β).Gives
      node ((readEntries f node).map g) := by
  suffices hall : (do keyed; Keyed.entries content (← Keyed.names) :
      Decoding S U (List (String × α))).Gives node (readEntries f node) by
    simpa only [bind_assoc] using hall.map g
  intro d hd
  have hkeyed := keyed_eq d
  rw [hd] at hkeyed
  rw [readEntries]
  by_cases hkind : Backend.kind node = .object
  · rw [if_pos hkind]
    refine ⟨claimed node 0, ?_⟩
    have hclaim := hkeyed.trans (if_pos hkind)
    rw [claim_fresh .keyed hd] at hclaim
    simp only [run_bind, hclaim]
    exact entries h (Backend.fieldNames node) rfl
  · rw [if_neg hkind]
    exact ⟨d.current, run_bind_of_error (hkeyed.trans (if_neg hkind))⟩

end Fields

end Gives

end Decoding

namespace Codable

open Decoding (Gives)

variable {X S U : Type} {D : X → Type} [Backend S] [LawfulBackend S]

theorem decode_gives {own : (x : X) → Decoding S U (D x)} {made : (x : X) → S → Except Error (D x)}
    (h : ∀ x node, (own x).Gives node (made x node)) (t : Codable X) (node : S) :
    (t.decode own).Gives node (t.read made node) := by
  induction t generalizing node with
  | prim p => exact .prim p
  | value => exact .value
  | list item ih => exact .list ih
  | option content ih => exact .option (ih node)
  | boxed content ih => exact ih node
  | sortedMap content ih => exact .fields ih SortedMap.ofEntries
  | dictionary content ih => exact .fields ih Dictionary.ofEntries
  | custom x => exact h x node

theorem ofTree_eq_read {D : Empty → Type} (own : (y : Empty) → Decoding S U (D y)) (naming : Naming)
    (user : U) (t : Codable Empty) (node : S) :
    t.ofTree own naming user node = (t.read (fun y => y.elim) node, user) :=
  Gives.run (decode_gives (fun y => y.elim) t node) naming user

end Codable

end DataTree
