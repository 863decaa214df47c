import DataTree.Json
import DataTree.Proofs.Tree.Through
import DataTree.Proofs.Xml.PathLaw

namespace DataTree

namespace Backend

variable {S : Type} [Backend S]

/-- Every path of reading that goes on behind `path` with the key ends there. -/
def ReadsEnd (node : S) (path : Path) (key : Key) (kind : Kind) : Prop :=
  ∀ rest, get node (path ++ key :: rest) = .error ⟨key.mismatch kind, path ++ [key]⟩

/-- Every path of writing that goes on behind `path` with the key ends there. -/
def WritesEnd (node : S) (path : Path) (key : Key) (kind : Kind) : Prop :=
  ∀ rest value merge,
    set node (path ++ key :: rest) value merge = .error ⟨key.mismatch kind, path ++ [key]⟩

end Backend

open Backend (Leads ReadsEnd WritesEnd)

namespace Tree

variable {L : Type} [Leaf L] {t w : Tree L} {path : Path}

theorem refused_of_scalar {k : ScalarKind} (h : Backend.kind w = .scalar k) (key : Key) :
    Backend.child w key = .error (key.mismatch (.scalar k)) ∧
      Backend.memberSlot w key = .error (key.mismatch (.scalar k)) := by
  rw [← h]
  cases w with
  | leaf x => cases key <;> exact ⟨rfl, rfl⟩
  | _ => cases h

theorem end_of_scalar {k : ScalarKind} (hget : Backend.get t path = .ok (some w))
    (hk : Backend.kind w = .scalar k) (key : Key) :
    ReadsEnd t path key (.scalar k) ∧ WritesEnd t path key (.scalar k) := by
  obtain ⟨hread, hwrite⟩ := refused_of_scalar hk key
  obtain ⟨slot, hleads, rfl⟩ := leads_of_get hget
  exact ⟨Backend.get_through_refused hget hread,
    fun rest value merge => Backend.set_of_refused hleads hwrite rest⟩

end Tree

namespace Xml.Node

variable {node leaf : Node} {path : Path} {key : Key} {name : String}

/-- A scalar that has no member under the key, neither for reading nor for writing. -/
inductive Refuses : Key → Node → Prop
  | text {key : Key} {content : String} : Refuses key (.text content)
  | item {index : Nat} {node : Node} : Refuses (.index index) node

/-- The value of an attribute, as it is found under its name. -/
inductive AttributeAt : Path → Node → Prop
  | mk (front : Path) (name content : String) : AttributeAt (front ++ [.name name]) (.text content)

def Repeated (name : String) : Node → Prop
  | .element _ _ children _ => 2 ≤ (children.filter (isNamed name)).length
  | _ => False

/-- No key of the path is a name of several children of the node that it is applied to. -/
def Direct : Path → Node → Prop
  | [], _ => True
  | key :: rest, node => (∀ name, key = .name name → ¬ Repeated name node) ∧
    ∀ next, Backend.child node key = .ok (some next) → Direct rest next

theorem itemSlot_of_item {i : Nat} {child : Node}
    (h : Backend.item node i = .ok (some child)) :
    ∃ refill, Backend.itemSlot node i = .ok (some ⟨child, refill⟩) := by
  change node.item i = _ at h
  show ∃ refill, node.itemSlot i = _
  cases node with
  | list items =>
      have hi : items[i]? = some child := Except.ok.inj h
      exact ⟨_, by rw [itemSlot, hi]; rfl⟩
  | element own attributes children content =>
      rw [item, items?] at h
      rw [itemSlot]
      split at h
      next hitems =>
        split at hitems
        next => cases hitems
        next hkind =>
          cases hitems
          rw [if_neg hkind, Except.ok.inj h]
          exact ⟨_, rfl⟩
      next => cases h
  | text content => cases h

theorem fieldSlot_of_field {child : Node} (h : Backend.field node name = .ok (some child))
    (hname : ¬ Repeated name node) :
    (∃ refill, Backend.fieldSlot node name = .ok (some ⟨child, refill⟩)) ∨
      ∃ content, child = .text content := by
  cases node with
  | element own attributes children content =>
      rw [field_element] at h
      show (∃ refill, fieldSlot _ name = _) ∨ _
      split at h
      next =>
        obtain ⟨s, -, rfl⟩ := Option.map_eq_some_iff.1 (Except.ok.inj h)
        exact .inr ⟨s, rfl⟩
      next one hone =>
        cases h
        rw [fieldSlot, hone]
        exact .inl ⟨_, rfl⟩
      next hnil hone =>
        refine absurd ?_ hname
        rw [Repeated]
        rcases hf : children.filter (isNamed name) with _ | ⟨one, _ | ⟨two, more⟩⟩
        · exact absurd hf hnil
        · exact absurd hf (hone one)
        · simp
  | _ => cases h

theorem fieldSlot_of_repeated (h : Repeated name node) :
    Backend.fieldSlot node name =
      .error (.dataCorrupted ("<" ++ name ++ "> occurs more than once")) := by
  cases node with
  | element own attributes children content =>
      rw [Repeated] at h
      show fieldSlot _ name = _
      rw [fieldSlot]
      split
      next hnil => simp [hnil] at h
      next one hone => simp [hone] at h
      next => rfl
  | _ => cases h

theorem eq_nil_of_get_text {content : String}
    (h : Backend.get (.text content) path = .ok (some leaf)) :
    path = [] ∧ leaf = .text content := by
  cases path with
  | nil =>
      cases h
      exact ⟨rfl, rfl⟩
  | cons key rest => cases key <;> cases h

theorem leads_of_get (hd : Direct path node) (h : Backend.get node path = .ok (some leaf)) :
    (∃ slot, Leads path node slot ∧ slot.node = leaf) ∨ AttributeAt path leaf := by
  induction path generalizing node with
  | nil =>
      cases h
      exact .inl ⟨_, .here, rfl⟩
  | cons key rest ih =>
      obtain ⟨next, hnext, hbelow⟩ := Backend.get_cons_eq_some.1 h
      have hmember : (∃ refill, Backend.memberSlot node key = .ok (some ⟨next, refill⟩)) ∨
          ∃ name content, key = .name name ∧ next = .text content := by
        cases key with
        | index i => exact .inl (itemSlot_of_item hnext)
        | name name =>
            rcases fieldSlot_of_field hnext (hd.1 name rfl) with hslot | ⟨content, rfl⟩
            · exact .inl hslot
            · exact .inr ⟨name, content, rfl, rfl⟩
      rcases hmember with ⟨refill, hmember⟩ | ⟨name, content, rfl, rfl⟩
      · rcases ih (hd.2 next hnext) hbelow with ⟨slot, hleads, hleaf⟩ | hattribute
        · exact .inl ⟨_, .step hmember hleads, hleaf⟩
        · cases hattribute with
          | mk front name content => exact .inr (.mk (key :: front) name content)
      · obtain ⟨rfl, rfl⟩ := eq_nil_of_get_text hbelow
        exact .inr (.mk [] name content)

theorem refused_of_scalar {k : ScalarKind} (hk : Backend.kind leaf = .scalar k)
    (h : Refuses key leaf) :
    Backend.child leaf key = .error (key.mismatch (.scalar k)) ∧
      Backend.memberSlot leaf key = .error (key.mismatch (.scalar k)) := by
  rw [← hk]
  cases h with
  | text => cases key <;> exact ⟨rfl, rfl⟩
  | item =>
      cases leaf with
      | text content => exact ⟨rfl, rfl⟩
      | list items => cases hk
      | element own attributes children content =>
          have hstring : kind (.element own attributes children content) = .scalar .string := by
            change kind _ = _ at hk
            rw [kind] at hk ⊢
            split at hk
            next => cases hk
            next hbare =>
              rw [if_neg hbare]
              split at hk
              next hcontent => rw [if_pos hcontent]
              next => cases hk
          constructor
          · show item _ _ = _
            rw [item, items?, if_pos hstring]
            rfl
          · show itemSlot (.element own attributes children content) _ = _
            rw [itemSlot, if_pos hstring]
            rfl

theorem set_of_repeated {parent x : Node} {merge : Bool} (hd : Direct path node)
    (hget : Backend.get node path = .ok (some parent)) (hname : Repeated name parent)
    (rest : Path) : Backend.set node (path ++ .name name :: rest) x merge =
      .error ⟨.dataCorrupted ("<" ++ name ++ "> occurs more than once"), path ++ [.name name]⟩ := by
  rcases leads_of_get hd hget with ⟨slot, hleads, rfl⟩ | hattribute
  · have hkey : Backend.memberSlot slot.node (.name name) =
        .error (.dataCorrupted ("<" ++ name ++ "> occurs more than once")) :=
      fieldSlot_of_repeated hname
    exact Backend.set_of_refused hleads hkey rest
  · cases hattribute
    cases hname

end Xml.Node

open Xml.Node (Refuses AttributeAt Repeated Direct)

/-- No path goes on behind a scalar. In XML this is said of texts and of asking for items, and of
writing only where the scalar is no attribute; and where a name of several children lies on the
path, all writing ends there. -/
theorem paths_end_at_scalars {path : Path} {key : Key} {k : ScalarKind} :
    (∀ t w : Value, Backend.get t path = .ok (some w) → Backend.kind w = .scalar k →
      ReadsEnd t path key (.scalar k) ∧ WritesEnd t path key (.scalar k)) ∧
    (∀ t w : Json, Backend.get t path = .ok (some w) → Backend.kind w = .scalar k →
      ReadsEnd t path key (.scalar k) ∧ WritesEnd t path key (.scalar k)) ∧
    ∀ node leaf : Xml.Node, Backend.get node path = .ok (some leaf) →
      Backend.kind leaf = .scalar k →
      (Refuses key leaf → ReadsEnd node path key (.scalar k) ∧
        (Direct path node → ¬ AttributeAt path leaf → WritesEnd node path key (.scalar k))) ∧
      ∀ front name back parent, path = front ++ .name name :: back → Direct front node →
        Backend.get node front = .ok (some parent) → Repeated name parent → ∀ rest x merge,
        Backend.set node (path ++ key :: rest) x merge =
          .error ⟨.dataCorrupted ("<" ++ name ++ "> occurs more than once"),
            front ++ [.name name]⟩ := by
  refine ⟨fun t w hget hk => Tree.end_of_scalar hget hk key,
    fun t w hget hk => Tree.end_of_scalar hget hk key, fun node leaf hget hk => ⟨?_, ?_⟩⟩
  · intro hrefuses
    obtain ⟨hread, hwrite⟩ := Xml.Node.refused_of_scalar hk hrefuses
    refine ⟨Backend.get_through_refused hget hread, fun hdirect hattribute rest x merge => ?_⟩
    rcases Xml.Node.leads_of_get hdirect hget with ⟨slot, hleads, rfl⟩ | hat
    · exact Backend.set_of_refused hleads hwrite rest
    · exact absurd hat hattribute
  · rintro front name back parent rfl hdirect hparent hname rest x merge
    rw [List.append_assoc]
    exact Xml.Node.set_of_repeated hdirect hparent hname (back ++ key :: rest)

theorem paths_end_at_scalars_item :
    let t : Value := .object [("a", .array [Value.int 1])]
    let node : Xml.Node := .element "r" [] [.element "a" [] [.element "i" [] [] "1"] ""] ""
    let twice : Xml.Node := .element "r" [] [.element "a" [] [] "1", .element "a" [] [] "2"] ""
    WritesEnd t [.name "a", .index 0] (.name "b") (.scalar .int) ∧
      WritesEnd node [.name "a", .index 0] (.index 0) (.scalar .string) ∧
      Backend.set twice [.name "a", .index 0, .index 0] (.text "3") false =
        .error ⟨.dataCorrupted "<a> occurs more than once", [.name "a"]⟩ := by
  intro t node twice
  have hdirect : Direct [.name "a", .index 0] node := by
    refine ⟨?_, fun next hnext => ⟨nofun, fun _ _ => trivial⟩⟩
    intro name hname hrepeated
    cases hname
    exact absurd hrepeated (by decide : ¬ 2 ≤ 1)
  have hattribute : ∀ path, ¬ AttributeAt path (.element "i" [] [] "1") := nofun
  exact ⟨(paths_end_at_scalars.1 t _ rfl rfl).2,
    ((paths_end_at_scalars.2.2 node _ rfl rfl).1 .item).2 hdirect (hattribute _),
    (paths_end_at_scalars.2.2 twice _ rfl rfl).2 [] "a" [.index 0] twice rfl trivial rfl
      (by decide : 2 ≤ 2) [] (.text "3") false⟩

/-- In XML a name behind an element with text alone is read as missing and written beside the text,
an attribute gives way to what is written behind it, and a write to one of several children ends at
their name. -/
theorem paths_go_on_at_scalars :
    let plain : Xml.Node := .element "r" [] [.element "a" [] [] "1"] ""
    let marked : Xml.Node := .element "r" [("a", "1")] [] ""
    let twice : Xml.Node := .element "r" [] [.element "a" [] [] "1", .element "a" [] [] "2"] ""
    (Backend.get plain [.name "a"] = .ok (some (.element "a" [] [] "1")) ∧
      Backend.kind (.element "a" [] [] "1" : Xml.Node) = .scalar .string ∧
      Backend.get plain [.name "a", .name "b"] = .ok none ∧
      Backend.set plain [.name "a", .name "b"] (.text "2") false =
        .ok (.element "r" [] [.element "a" [] [.element "b" [] [] "2"] "1"] "")) ∧
    (Backend.get marked [.name "a"] = .ok (some (.text "1")) ∧
      Backend.kind (.text "1" : Xml.Node) = .scalar .string ∧
      Backend.set marked [.name "a", .name "b"] (.text "2") false =
        .ok (.element "r" [] [.element "a" [] [.element "b" [] [] "2"] ""] "")) ∧
    (Backend.get twice [.name "a", .index 0] = .ok (some (.element "a" [] [] "1")) ∧
      Backend.set twice [.name "a", .index 0, .name "b"] (.text "2") false =
        .error ⟨.dataCorrupted "<a> occurs more than once", [.name "a"]⟩) :=
  ⟨⟨rfl, rfl, rfl, rfl⟩, ⟨rfl, rfl, rfl⟩, rfl, rfl⟩

end DataTree
