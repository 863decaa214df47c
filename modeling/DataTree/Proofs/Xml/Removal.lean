import DataTree.Proofs.Backend.Erased
import DataTree.Proofs.Xml.PathLaw

namespace DataTree.Xml.Node

open Backend (Erased)

variable {node node' : Node} {path : Path}

theorem isNamed_erased {own : String} (e : Erased path node node') (hne : path ≠ []) :
    isNamed own node' = isNamed own node := by
  cases e with
  | root => exact absurd rfl hne
  | last hremove => exact isNamed_removeField hremove
  | field hslot _ => exact isNamed_refill hslot

theorem isNamed_slot_erased {name : String} {slot : Slot Node} {inner : Node}
    (hslot : Backend.fieldSlot node name = .ok (some slot)) (e : Erased path slot.node inner)
    (hne : path ≠ []) : isNamed name inner = true := by
  rw [isNamed_erased e hne]
  exact isNamed_slot hslot

theorem get_name {name : String} {rest : Path} {child : Node}
    (h : Backend.field node name = .ok (some child)) :
    Backend.get node (.name name :: rest) =
      (Backend.get child rest).mapError (Error.within [.name name]) := by
  have hchild : Backend.child node (.name name) = .ok (some child) := h
  exact Backend.get_cons hchild rest

theorem get_name_eq_none {name : String} :
    Backend.get node [.name name] = .ok none ↔ Backend.field node name = .ok none := by
  rw [Backend.get, Backend.child]
  cases Backend.field node name with
  | error fault => constructor <;> intro h <;> cases h
  | ok found =>
      cases found with
      | none => exact ⟨fun _ => rfl, fun _ => rfl⟩
      | some child => constructor <;> intro h <;> cases h

/-- The field at a path is an attribute behind children of its name. -/
def ShadowedAt (path : Path) (node : Node) : Prop :=
  ∃ front name parent, path = front ++ [.name name] ∧
    Backend.get node front = .ok (some parent) ∧ Shadowed name parent

theorem shadowedAt_last {name : String} : ShadowedAt [.name name] node ↔ Shadowed name node := by
  constructor
  · rintro ⟨front, last, parent, hpath, hget, hs⟩
    cases front with
    | nil =>
        cases hpath
        cases hget
        exact hs
    | cons key front => simp at hpath
  · intro hs
    exact ⟨[], name, node, rfl, rfl, hs⟩

theorem shadowedAt_cons {name : String} {next : Key} {rest : Path} {child : Node}
    (h : Backend.field node name = .ok (some child)) :
    ShadowedAt (.name name :: next :: rest) node ↔ ShadowedAt (next :: rest) child := by
  constructor
  · rintro ⟨front, last, parent, hpath, hget, hs⟩
    cases front with
    | nil => cases hpath
    | cons key front =>
        obtain ⟨rfl, hbelow⟩ := List.cons.inj hpath
        rw [get_name h, mapError_eq_ok] at hget
        exact ⟨front, last, parent, hbelow, hget, hs⟩
  · rintro ⟨front, last, parent, hpath, hget, hs⟩
    refine ⟨.name name :: front, last, parent, by rw [hpath]; rfl, ?_, hs⟩
    rw [get_name h, mapError_eq_ok, hget]

theorem get_erased (e : Erased path node node') (hne : path ≠ []) :
    Backend.get node' path = .ok none ↔ ¬ ShadowedAt path node := by
  induction e with
  | root => exact absurd rfl hne
  | last hremove =>
      rw [shadowedAt_last, ← field_removeField_eq_none hremove]
      exact get_name_eq_none
  | @field node inner name slot next rest hslot e ih =>
      have hinner := isNamed_slot_erased hslot e (List.cons_ne_nil _ _)
      rw [get_name (field_refill_self hslot hinner), mapError_eq_ok, ih (List.cons_ne_nil _ _),
        shadowedAt_cons (field_slot hslot)]

theorem get_erased_beside (e : Erased path node node') (hne : path ≠ []) {other : Path}
    (ho : OnlyNames other) (hd : path.Diverge other) :
    Backend.get node' other = Backend.get node other := by
  induction e generalizing other with
  | root => exact absurd rfl hne
  | @last node node' name found hremove =>
      refine Backend.get_of_diverge hd (fun below _ hbelow => ?_) fun first below hp hkey => ?_
      · exact absurd hbelow.symm Path.not_diverge_nil
      · subst hp
        cases first with
        | index i => cases ho (.index i) List.mem_cons_self
        | name first => exact field_removeField_of_ne hremove fun h => hkey (congrArg _ h)
  | @field node inner name slot next rest hslot e ih =>
      have hinner := isNamed_slot_erased hslot e (List.cons_ne_nil _ _)
      refine Backend.get_of_diverge hd (fun below hp hbelow => ?_) fun first below hp hkey => ?_
      · subst hp
        rw [get_name (field_refill_self hslot hinner), get_name (field_slot hslot),
          ih (List.cons_ne_nil _ _) ho.tail hbelow]
      · subst hp
        cases first with
        | index i => cases ho (.index i) List.mem_cons_self
        | name first => exact field_refill_of_ne hslot (fun h => hkey (congrArg _ h)) hinner

/-- After a removal its path leads to nothing, unless an attribute stood behind children of the name
that it ends with; and what is read at a path of names beside it is what was read before. -/
theorem get_remove_unless_shadowed (hne : path ≠ [])
    (h : Backend.remove path node = .ok node') :
    (Backend.get node' path = .ok none ↔ ¬ ShadowedAt path node) ∧
      ∀ other, OnlyNames other → path.Diverge other →
        Backend.get node' other = Backend.get node other := by
  have e := Backend.erased_of_remove h
  exact ⟨get_erased e hne, fun other ho hd => get_erased_beside e hne ho hd⟩

/-- The attribute that stood behind a child comes forward once the child is removed. -/
theorem get_remove_of_shadowed :
    let node : Node := .element "r" [("a", "1")] [.element "a" [] [] "2"] ""
    let node' : Node := .element "r" [("a", "1")] [] ""
    Backend.remove [.name "a"] node = .ok node' ∧
      Backend.get node' [.name "a"] = .ok (some (.text "1")) :=
  ⟨rfl, rfl⟩

theorem get_remove_of_repeated :
    let node : Node := .element "r" [("b", "1")]
      [.element "p" [("a", "0")] [.element "q" [] [] "2", .element "q" [] [] "3"] ""] ""
    let node' : Node := .element "r" [("b", "1")] [.element "p" [("a", "0")] [] ""] ""
    Backend.remove [.name "p", .name "q"] node = .ok node' ∧
      (Backend.get node' [.name "p", .name "q"] = .ok none ↔
        ¬ ShadowedAt [.name "p", .name "q"] node) ∧
      ∀ other, OnlyNames other → Path.Diverge [.name "p", .name "q"] other →
        Backend.get node' other = Backend.get node other :=
  ⟨rfl, get_remove_unless_shadowed (List.cons_ne_nil _ _) rfl⟩

end DataTree.Xml.Node
