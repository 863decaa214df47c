import DataTree.Proofs.Backend.Lawful
import DataTree.Proofs.Xml.Merging

namespace DataTree

class CoherentBackend (S : Type) [Backend S] : Prop extends LawfulBackend S where
  mem_fieldNames : ∀ {node : S} {name : String},
    name ∈ Backend.fieldNames node ↔ ∃ child, Backend.field node name = .ok (some child)
  child_ne_of_isNull : ∀ {node : S}, Backend.isNull node = true →
    ∀ key child, Backend.child node key ≠ .ok (some child)
  pushItem_error : ∀ {node node' child : S} {fault : Fault},
    Backend.pushItem child node = .error fault node' → node' = node

namespace Tree

variable {L : Type} [Leaf L]

instance : CoherentBackend (Tree L) where
  mem_fieldNames {t name} := by
    cases t with
    | object fields =>
        show name ∈ Fields.names fields ↔ ∃ child, Except.ok (List.lookup name fields) = _
        cases hfind : List.lookup name fields with
        | none => simp [Fields.lookup_eq_none.1 hfind]
        | some child => simp [Fields.mem_names_of_lookup hfind]
    | _ => exact iff_of_false List.not_mem_nil nofun
  child_ne_of_isNull {t} h key child := by
    cases t with
    | leaf x => cases key <;> nofun
    | _ => cases h
  pushItem_error {t t' child fault} h := by
    cases t <;> cases h <;> rfl

end Tree

namespace Xml.Node

theorem eq_of_isNull {node : Node} (h : Backend.isNull node = true) :
    ∃ own, node = .element own [] [] "" := by
  have hkind : node.kind = .null := beq_iff_eq.1 h
  cases node with
  | element own attributes children content =>
      rw [kind] at hkind
      split at hkind
      next => cases hkind
      next hbare =>
        split at hkind
        next => cases hkind
        next hcontent =>
          cases attributes <;> cases children <;> simp_all
  | _ => cases hkind

instance : CoherentBackend Node where
  mem_fieldNames := mem_fieldNames
  child_ne_of_isNull {node} h key child := by
    obtain ⟨own, rfl⟩ := eq_of_isNull h
    cases key <;> nofun
  pushItem_error {node node' child fault} h := by
    change pushItem child node = _ at h
    cases node with
    | element own attributes children content =>
        rw [pushItem] at h
        split at h
        next =>
          cases h
          rfl
        next => cases h
    | list items => cases h
    | text content =>
        cases h
        rfl

end Xml.Node

end DataTree
