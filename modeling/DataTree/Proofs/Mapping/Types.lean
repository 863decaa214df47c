import DataTree.Proofs.Mapping.Lawful
import DataTree.Proofs.Tree.Recovery

namespace DataTree

mutual

/-- The codes of mapped types. -/
inductive MappedType
  | prim (p : Primitive)
  | value
  | list (item : MappedType)
  | option (content : MappedType)
  | record (fields : MappedFields)

/-- The fields of a record in the order in which they are mapped, each at a path of its own. Those
that are optional may be missing. -/
inductive MappedFields
  | nil
  | cons (path : Path) (type : MappedType) (rest : MappedFields)
  | optional (path : Path) (type : MappedType) (rest : MappedFields)

end

mutual

abbrev MappedType.Carrier : MappedType → Type
  | .prim p => p.Carrier
  | .value => Value
  | .list item => List item.Carrier
  | .option content => Option content.Carrier
  | .record fields => fields.Carrier

abbrev MappedFields.Carrier : MappedFields → Type
  | .nil => Unit
  | .cons _ type rest => type.Carrier × rest.Carrier
  | .optional _ type rest => Option type.Carrier × rest.Carrier

end

section Mapping

variable {S : Type} [Backend S]

mutual

def MappedType.reader : (t : MappedType) → Reader S t.Carrier
  | .prim p => .prim p
  | .value => .value
  | .list item => .list item.reader
  | .option content => .option content.reader
  | .record fields => .record fields.read

def MappedFields.read : (fields : MappedFields) → S → Except Error fields.Carrier
  | .nil, _ => .ok ()
  | .cons path type rest, source =>
    do return (← type.reader.require path source, ← rest.read source)
  | .optional path type rest, source =>
    do return (← type.reader.optional path source, ← rest.read source)

end

mutual

def MappedType.writer : (t : MappedType) → Writer S t.Carrier
  | .prim p => .prim p
  | .value => .value
  | .list item => .list item.writer
  | .option content => .option content.writer
  | .record fields => .record fields.store

def MappedFields.store : (fields : MappedFields) → fields.Carrier → EStateM Error S Unit
  | .nil, _ => pure ()
  | .cons path type rest, x => do
    type.writer.store path x.1
    rest.store x.2
  | .optional path type rest, x => do
    type.writer.storeOptional path x.1
    rest.store x.2

end

end Mapping

def MappedType.isOption : MappedType → Bool
  | .option _ => true
  | _ => false

def MappedFields.paths : MappedFields → List Path
  | .nil => []
  | .cons path _ rest | .optional path _ rest => path :: rest.paths

def MappedFields.Apart (fields : MappedFields) : Prop :=
  (∀ p ∈ fields.paths, p ≠ []) ∧ fields.paths.Pairwise Path.Diverge

mutual

/-- Types whose values can be told apart once written. A null is the none of one option only, so
none is directly around another, and a value, which may be null itself, is left out. So is a record
with an optional field: without it, the one in the destination stays. -/
def MappedType.Regular : MappedType → Prop
  | .prim _ => True
  | .value => False
  | .list item => item.Regular
  | .option content => content.isOption = false ∧ content.Regular
  | .record fields => fields.Apart ∧ fields.Regular

def MappedFields.Regular : MappedFields → Prop
  | .nil => True
  | .cons _ type rest => type.Regular ∧ rest.Regular
  | .optional _ _ _ => False

end

section RoundTrip

variable {L : Type} [Leaf L]

theorem MappedType.absent_null [LawfulLeaf L] {t : MappedType} (h : t.isOption = false) :
    (t.reader : Reader (Tree L) t.Carrier).absent Backend.null = true := by
  cases t with
  | option content => cases h
  | list item =>
      show (Backend.isNull (Backend.null : Tree L) && _) = true
      rw [Tree.isNull_null]
      rfl
  | _ => exact Tree.isNull_null

mutual

theorem MappedType.lawful [LawfulLeaf L] :
    ∀ {t : MappedType}, t.Regular → Lawful (t.reader : Reader (Tree L) t.Carrier) t.writer
  | .prim p, _ => .prim p
  | .list _, h => .list (MappedType.lawful h)
  | .option _, h => .option (MappedType.lawful h.2) (MappedType.absent_null h.1)
  | .record _, h => .record (MappedFields.lawful h.1.1 h.1.2 h.2)

theorem MappedFields.lawful [LawfulLeaf L] :
    ∀ {fields : MappedFields}, (∀ p ∈ fields.paths, p ≠ []) → fields.paths.Pairwise Path.Diverge →
      fields.Regular → LawfulFields fields.paths (fields.read (S := Tree L)) fields.store
  | .nil, _, _, _ => .nil
  | .cons path type rest, hne, hd, h => by
      obtain ⟨hfirst, hrest⟩ := List.pairwise_cons.1 hd
      have hpath := hne path List.mem_cons_self
      have hfields := MappedFields.lawful (fun p hp => hne p (List.mem_cons_of_mem _ hp)) hrest h.2
      have hkeys : KeySpace.path path = path := List.map_id path
      have hall := LawfulFields.cons (MappedType.lawful h.1) path (by rwa [hkeys]) (by rwa [hkeys])
        hfields
      rwa [hkeys] at hall

end

end RoundTrip

/-- What is written of a regular type to a path, over whatever the destination holds, is read back
from that path as it was. -/
theorem MappedType.require_store {t : MappedType} (ht : t.Regular) {κ : Type} [KeySpace κ]
    (keys : List κ) (x : t.Carrier) :
    (∀ tree tree' : Value, t.writer.store keys x tree = .ok () tree' →
      t.reader.require keys tree' = .ok x) ∧
    ∀ tree tree' : Json, t.writer.store keys x tree = .ok () tree' →
      t.reader.require keys tree' = .ok x := by
  constructor
  · intro tree tree' hs
    exact (MappedType.lawful ht).require_of_store hs
  · intro tree tree' hs
    exact (MappedType.lawful ht).require_of_store hs

/-- A record whose first field is none, merged into an object with that field and another one. -/
theorem MappedType.require_store_merging :
    let t : MappedType := .record (.cons [.name "id"] (.option (.prim .bool))
      (.cons [.name "at", .name "tags"] (.list (.option (.prim .string))) .nil))
    let tree : Value :=
      .object [("item", .object [("id", Value.bool true), ("note", Value.null)])]
    ∃ tree', t.writer.store ["item"] (none, [some "a", none], ()) tree = .ok () tree' ∧
      t.reader.require ["item"] tree' = .ok (none, [some "a", none], ()) := by
  intro t tree
  have ht : t.Regular := by
    refine ⟨⟨by decide, ?_⟩, ⟨rfl, trivial⟩, ⟨rfl, trivial⟩, trivial⟩
    simp [MappedFields.paths, Path.Diverge]
  exact ⟨_, rfl, (MappedType.require_store ht ["item"] _).1 tree _ rfl⟩

end DataTree
