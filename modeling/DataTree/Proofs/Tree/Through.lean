import DataTree.Proofs.Backend.Through
import DataTree.Proofs.Tree.Written

namespace DataTree

open Backend (Leads)

namespace Tree

variable {L : Type} [Leaf L] {t w x : Tree L} {path : Path} {merge : Bool}

theorem leads_of_get (h : Backend.get t path = .ok (some w)) :
    ∃ slot, Leads path t slot ∧ slot.node = w := by
  induction path generalizing t with
  | nil =>
      cases h
      exact ⟨_, .here, rfl⟩
  | cons key rest ih =>
      obtain ⟨next, hnext, hbelow⟩ := Backend.get_cons_eq_some.1 h
      obtain ⟨slot, hleads, hw⟩ := ih hbelow
      have hmember : ∃ refill, Backend.memberSlot t key = .ok (some ⟨next, refill⟩) := by
        cases key with
        | name name =>
            cases t with
            | object fields =>
                have hf : List.lookup name fields = some next := Except.ok.inj hnext
                refine ⟨fun y => .object (Fields.put name y fields), ?_⟩
                rw [Backend.memberSlot, fieldSlot_object, hf]
                rfl
            | _ => cases hnext
        | index i =>
            cases t with
            | array items =>
                have hi : items[i]? = some next := Except.ok.inj hnext
                refine ⟨fun y => .array (items.set i y), ?_⟩
                rw [Backend.memberSlot, itemSlot_array, hi]
                rfl
            | _ => cases hnext
      obtain ⟨refill, hmember⟩ := hmember
      exact ⟨_, .step hmember hleads, hw⟩

theorem set_through_of_error (h : Backend.get t path = .ok (some w)) {rest : Path} {e : Error}
    (hw : Backend.set w rest x merge = .error e) :
    Backend.set t (path ++ rest) x merge = .error (e.within path) := by
  obtain ⟨slot, hleads, rfl⟩ := leads_of_get h
  rw [Backend.set_through hleads, hw]
  rfl

theorem set_through_of_ok (h : Backend.get t path = .ok (some w)) {rest : Path} {w' : Tree L}
    (hw : Backend.set w rest x merge = .ok w') :
    Backend.set t (path ++ rest) x merge = Backend.set t path w' false := by
  obtain ⟨slot, hleads, rfl⟩ := leads_of_get h
  have hback : Backend.set t path w' false =
      ((Backend.set slot.node [] w' false).map slot.refill).mapError (Error.within path) := by
    rw [← Backend.set_through hleads, List.append_nil]
  rw [Backend.set_through hleads, hw, hback]
  rfl

theorem set_of_get (h : Backend.get t path = .ok (some w))
    (hw : Backend.set w [] x merge = .ok w) : Backend.set t path x merge = .ok t := by
  obtain ⟨slot, hleads, rfl⟩ := leads_of_get h
  rw [← List.append_nil path, Backend.set_through hleads, hw]
  exact congrArg Except.ok hleads.refill_node

end Tree

/-- Paths are taken in parts. What is read behind a path is read in the node there, and what is
written behind a path that leads to a node of a value or of JSON is written in that node, which then
takes its place. Errors behind the path have it in front of their own. -/
theorem paths_compose :
    (∀ {S : Type} [Backend S] (node : S) (path rest : Path),
      Backend.get node (path ++ rest) = match Backend.get node path with
        | .error e => .error e
        | .ok none => .ok none
        | .ok (some inner) => (Backend.get inner rest).mapError (Error.within path)) ∧
    ∀ {L : Type} [Leaf L] {t w : Tree L} {path : Path}, Backend.get t path = .ok (some w) →
      ∀ (rest : Path) (x : Tree L) (merge : Bool),
      Backend.set t (path ++ rest) x merge = match Backend.set w rest x merge with
        | .error e => .error (e.within path)
        | .ok w' => Backend.set t path w' false := by
  refine ⟨fun node path rest => Backend.get_append_eq node path rest, ?_⟩
  intro L _ t w path h rest x merge
  cases hw : Backend.set w rest x merge with
  | error e => exact Tree.set_through_of_error h hw
  | ok w' => exact Tree.set_through_of_ok h hw

theorem paths_compose_mixed :
    let t : Value := .object [("a", .array [.object [("b", Value.int 1)]])]
    let node : Xml.Node :=
      .element "r" [] [.element "a" [] [] "1", .element "a" [("b", "2")] [] ""] ""
    let path : Path := [.name "a", .index 0]
    Backend.set t (path ++ [.name "c"]) (Value.int 2) false =
        Backend.set t path (.object [("b", Value.int 1), ("c", Value.int 2)]) false ∧
      Backend.set t (path ++ [.name "b", .index 0]) (Value.int 2) false =
        .error ⟨.expectedArray (.scalar .int), path ++ [.name "b", .index 0]⟩ ∧
      Backend.get node ([.name "a", .index 1] ++ [.name "b", .name "c"]) =
        .error ⟨.expectedObject (.scalar .string),
          [.name "a", .index 1, .name "b", .name "c"]⟩ := by
  intro t node path
  have h : Backend.get t path = .ok (some (.object [("b", Value.int 1)])) := rfl
  exact ⟨paths_compose.2 h [.name "c"] (Value.int 2) false,
    paths_compose.2 h [.name "b", .index 0] (Value.int 2) false,
    paths_compose.1 node [.name "a", .index 1] [.name "b", .name "c"]⟩

end DataTree
