import DataTree.Proofs.Mapping.Types
import DataTree.Proofs.Xml.Leaf
import DataTree.Proofs.Xml.Merging

namespace DataTree

open Backend (Wrote)
open Xml.Node (Standing Plain Shows OnlyNames NamesNonempty Bears)

variable {α β : Type}

/-- What the writer makes of an admitted value is a node that the reader takes for that value, and
never for nothing, wherever the node was placed. -/
structure Placeable (r : Reader Xml.Node α) (w : Writer Xml.Node α) (admits : α → Prop) : Prop where
  present : ∀ {x node m}, w.write x = .ok node → admits x → Standing node m → r.absent m = false
  read : ∀ {x node m}, w.write x = .ok node → admits x → Standing node m → r.read m = .ok x

namespace Placeable

variable {r : Reader Xml.Node α} {w : Writer Xml.Node α} {admits : α → Prop}

theorem require_of_store {κ : Type} [KeySpace κ] (h : Placeable r w admits) {keys : List κ} {x : α}
    (hx : admits x) (hkeys : NamesNonempty (KeySpace.path keys)) {node node' : Xml.Node}
    (hs : w.store keys x node = .ok () node') : r.require keys node' = .ok x := by
  obtain ⟨written, hw, hset⟩ := Writer.store_eq_ok.1 hs
  obtain ⟨m, hget, hm⟩ := Xml.Node.get_wrote (Backend.wrote_of_setAt hset) hkeys
  exact Reader.require_of_get hget (h.present hw hx hm) (h.read hw hx hm)

theorem bears_of_standing {s : String} {m : Xml.Node} (h : Standing (.text s) m) : Bears s m := by
  cases h with
  | same => exact .text
  | named _ => exact .element _
  | merged hkind _ => cases hkind

theorem prim (p : Primitive) : Placeable (.prim p) (.prim p) p.Legible where
  present hw hx hm := by
    obtain ⟨s, rfl, hs, hread⟩ := Xml.Node.writeLeaf_text (mapError_eq_ok.1 hw) hx
    exact (Xml.Node.readLeaf_bears hs hread (bears_of_standing hm)).1
  read hw hx hm := by
    obtain ⟨s, rfl, hs, hread⟩ := Xml.Node.writeLeaf_text (mapError_eq_ok.1 hw) hx
    exact mapError_eq_ok.2 (Xml.Node.readLeaf_bears hs hread (bears_of_standing hm)).2

theorem items_of_standing {items : List Xml.Node} {m : Xml.Node} (h : Standing (.list items) m) :
    Backend.items m = some items ∨
      Backend.items m = some (items.map (Xml.Node.named Xml.itemName)) := by
  cases h with
  | same => exact .inl rfl
  | named _ =>
      refine .inr ?_
      show Xml.Node.items? _ = _
      rw [Xml.Node.named, Xml.Node.items?, if_neg, Xml.Node.namedItems_eq_map]
      rw [Xml.Node.kind]
      split <;> simp
  | merged hkind _ => cases hkind

theorem list (h : Placeable r w admits) :
    Placeable r.list w.list fun xs => ∀ x ∈ xs, admits x where
  present hw _ hm := by
    obtain ⟨ys, -, rfl⟩ := map_eq_ok.1 hw
    rw [Reader.list_absent]
    rcases items_of_standing hm with hitems | hitems <;> exact Reader.listAbsent_of_items hitems
  read {xs node m} hw hx hm := by
    obtain ⟨ys, hys, rfl⟩ := map_eq_ok.1 hw
    have hitem {x y z} (hxs : x ∈ xs) (hy : w.write x = .ok y) (hz : Standing y z) :
        (if r.absent z then .error (.root .valueNotFound) else r.read z) = Except.ok x := by
      rw [h.present hy (hx x hxs) hz, if_neg (by simp), h.read hy (hx x hxs) hz]
    rw [Reader.list_read]
    rcases items_of_standing hm with hitems | hitems
    · rw [Reader.readItems, hitems]
      exact eachItem_inverse_of_mem (fun x hxs y hy => hitem hxs hy .same) hys 0
    · rw [Reader.readItems, hitems]
      simp only [eachItem_map]
      exact eachItem_inverse_of_mem (fun x hxs y hy => hitem hxs hy (.named (by decide))) hys 0

theorem isNull_of_standing {m : Xml.Node} (h : Standing Backend.null m) :
    Backend.isNull m = true := by
  cases h with
  | merged hkind _ => cases hkind
  | _ => rfl

theorem option (h : Placeable r w admits) (hnull : ∀ m, r.absent m = Backend.isNull m) :
    Placeable r.option w.option fun found => ∀ x ∈ found, admits x where
  present _ _ _ := rfl
  read {found node m} hw hx hm := by
    cases found with
    | none =>
        cases hw
        have habsent : r.absent m = true := by rw [hnull, isNull_of_standing hm]
        simp only [Reader.option, habsent, if_true]
    | some x =>
        have hpresent := h.present hw (hx x rfl) hm
        have hread := h.read hw (hx x rfl) hm
        simp only [Reader.option, hpresent, hread]
        rfl

end Placeable

/-- Reading takes back storing field by field. The stores leave an element without attributes and
without repeated names, are not seen beside their paths, and leave something at each of them. -/
structure PlaceableFields (paths : List Path) (read : Xml.Node → Except Error α)
    (store : α → EStateM Error Xml.Node Unit) (admits : α → Prop) : Prop where
  plain : ∀ {x t t'}, store x t = .ok () t' → Plain t → Plain t'
  beside : ∀ {x t t'}, store x t = .ok () t' → ∀ {other}, (∀ p ∈ paths, p.Diverge other) →
    OnlyNames other → ∀ {v}, Backend.get t other = .ok (some v) →
      Backend.get t' other = .ok (some v)
  found : ∀ {x t t'}, store x t = .ok () t' → ∀ p ∈ paths, ∃ v, Backend.get t' p = .ok (some v)
  read : ∀ {x t t'}, store x t = .ok () t' → admits x → ∀ {m}, Shows t' m → read m = .ok x

namespace PlaceableFields

theorem nil : PlaceableFields [] (fun _ => .ok ()) (fun _ => pure ()) (fun _ => True) where
  plain hs ht := by
    cases hs
    exact ht
  beside hs _ _ _ _ hget := by
    cases hs
    exact hget
  found _ _ hp := by cases hp
  read _ _ _ _ := rfl

theorem cons {r : Reader Xml.Node α} {w : Writer Xml.Node α} {admits : α → Prop}
    (h : Placeable r w admits) {path : Path} (hne : path ≠ []) (honly : OnlyNames path)
    (hnames : NamesNonempty path) {paths : List Path} {read : Xml.Node → Except Error β}
    {store : β → EStateM Error Xml.Node Unit} {rest : β → Prop} (hd : ∀ p ∈ paths, path.Diverge p)
    (hf : PlaceableFields paths read store rest) :
    PlaceableFields (path :: paths)
      (fun source => do return (← r.require path source, ← read source))
      (fun x => do w.store path x.1; store x.2) (fun x => admits x.1 ∧ rest x.2) := by
  have hpath : KeySpace.path path = path := List.map_id path
  have hfirst {x : α × β} {t t' : Xml.Node}
      (hs : (do w.store path x.1; store x.2 : EStateM Error Xml.Node Unit) t = .ok () t') :
      ∃ node u, w.write x.1 = .ok node ∧ Wrote node true path t u ∧ store x.2 u = .ok () t' := by
    obtain ⟨_, u, hu, hrest⟩ := run_bind_eq_ok.1 hs
    obtain ⟨node, hw, hset⟩ := Writer.store_eq_ok.1 hu
    rw [hpath] at hset
    exact ⟨node, u, hw, Backend.wrote_of_setAt hset, hrest⟩
  -- the later fields leave this one where it was stored
  have hkept {x : α × β} {t t' : Xml.Node}
      (hs : (do w.store path x.1; store x.2 : EStateM Error Xml.Node Unit) t = .ok () t') :
      ∃ node m, w.write x.1 = .ok node ∧ Standing node m ∧
        Backend.get t' path = .ok (some m) := by
    obtain ⟨node, u, hw, hwrote, hrest⟩ := hfirst hs
    obtain ⟨m, hget, hm⟩ := Xml.Node.get_wrote hwrote hnames
    exact ⟨node, m, hw, hm, hf.beside hrest (fun p hp => (hd p hp).symm) honly hget⟩
  constructor
  · intro x t t' hs ht
    obtain ⟨node, u, hw, hwrote, hrest⟩ := hfirst hs
    exact hf.plain hrest (Xml.Node.plain_wrote hwrote hne honly hnames ht)
  · intro x t t' hs other ho hother v hget
    obtain ⟨node, u, hw, hwrote, hrest⟩ := hfirst hs
    have hbeside := ho path List.mem_cons_self
    exact hf.beside hrest (fun p hp => ho p (List.mem_cons_of_mem _ hp)) hother
      (Xml.Node.get_wrote_beside hwrote hnames honly hother hbeside hget)
  · intro x t t' hs p hp
    obtain ⟨node, u, hw, hwrote, hrest⟩ := hfirst hs
    obtain ⟨node', m, -, -, hget⟩ := hkept hs
    rcases List.mem_cons.1 hp with rfl | hp
    · exact ⟨m, hget⟩
    · exact hf.found hrest p hp
  · intro x t t' hs hx m hm
    obtain ⟨node, u, -, -, hrest⟩ := hfirst hs
    obtain ⟨node', found, hw, hstanding, hget⟩ := hkept hs
    have hshown := hm path found hne honly hget
    have hrequire : r.require path m = .ok x.1 := by
      refine Reader.require_of_get ?_ (h.present hw hx.1 hstanding) (h.read hw hx.1 hstanding)
      rwa [hpath]
    simp only [hrequire, hf.read hrest hx.2 hm]
    rfl

end PlaceableFields

theorem Placeable.record {path : Path} {paths : List Path} {read : Xml.Node → Except Error α}
    {store : α → EStateM Error Xml.Node Unit} {admits : α → Prop} (hne : path ≠ [])
    (honly : OnlyNames path) (h : PlaceableFields (path :: paths) read store admits) :
    Placeable (.record read) (.record store) admits where
  present {x node m} hw hx hm := by
    have hs := Writer.record_eq_ok.1 hw
    have hshows := Xml.Node.standing_shows (h.plain hs Xml.Node.plain_object) hm
    obtain ⟨v, hv⟩ := h.found hs path List.mem_cons_self
    have hkind := Xml.Node.kind_of_get hne honly (hshows path v hne honly hv)
    rw [Reader.record_absent, Backend.isNull, hkind]
    rfl
  read {x node m} hw hx hm := by
    have hs := Writer.record_eq_ok.1 hw
    exact h.read hs hx (Xml.Node.standing_shows (h.plain hs Xml.Node.plain_object) hm)

section Types

mutual

def MappedType.Every (q : (p : Primitive) → p.Carrier → Prop) : (t : MappedType) → t.Carrier → Prop
  | .prim p, x => q p x
  | .value, _ => True
  | .list item, xs => ∀ x ∈ xs, item.Every q x
  | .option content, found => ∀ x ∈ found, content.Every q x
  | .record fields, x => fields.Every q x

def MappedFields.Every (q : (p : Primitive) → p.Carrier → Prop) :
    (fields : MappedFields) → fields.Carrier → Prop
  | .nil, _ => True
  | .cons _ type rest, x => type.Every q x.1 ∧ rest.Every q x.2
  | .optional _ type rest, x => (∀ y ∈ x.1, type.Every q y) ∧ rest.Every q x.2

end

mutual

/-- Types that XML can hold. An option is of a primitive, since an empty list is a null as well;
and a record has a field, and its fields stand at nonempty names that lead apart. -/
def MappedType.Placeable : MappedType → Prop
  | .prim _ => True
  | .value => False
  | .list item => item.Placeable
  | .option content => ∃ p, content = .prim p
  | .record fields => fields.paths ≠ [] ∧ fields.Apart ∧
      (∀ p ∈ fields.paths, OnlyNames p ∧ NamesNonempty p) ∧ fields.Placeable

def MappedFields.Placeable : MappedFields → Prop
  | .nil => True
  | .cons _ type rest => type.Placeable ∧ rest.Placeable
  | .optional _ _ _ => False

end

mutual

theorem MappedType.placeable : ∀ {t : MappedType}, t.Placeable →
    DataTree.Placeable t.reader t.writer (t.Every Primitive.Legible)
  | .prim p, _ => .prim p
  | .list _, h => .list (MappedType.placeable h)
  | .option _, h => by
      obtain ⟨p, rfl⟩ := h
      exact .option (.prim p) fun _ => rfl
  | .record fields, h => by
      obtain ⟨hsome, hapart, hpaths, htypes⟩ := h
      have hfields := MappedFields.placeable hapart.1 hapart.2 hpaths htypes
      cases fields with
      | nil => exact absurd rfl hsome
      | cons path type rest =>
          exact .record (hapart.1 path List.mem_cons_self)
            (hpaths path List.mem_cons_self).1 hfields
      | optional path type rest => exact htypes.elim

theorem MappedFields.placeable : ∀ {fields : MappedFields}, (∀ p ∈ fields.paths, p ≠ []) →
    fields.paths.Pairwise Path.Diverge →
    (∀ p ∈ fields.paths, OnlyNames p ∧ NamesNonempty p) → fields.Placeable →
    PlaceableFields fields.paths fields.read fields.store (fields.Every Primitive.Legible)
  | .nil, _, _, _, _ => .nil
  | .cons path _ _, hne, hd, hpaths, h => by
      obtain ⟨hfirst, hrest⟩ := List.pairwise_cons.1 hd
      obtain ⟨honly, hnames⟩ := hpaths path List.mem_cons_self
      exact .cons (MappedType.placeable h.1) (hne path List.mem_cons_self) honly hnames hfirst
        (MappedFields.placeable (fun p hp => hne p (List.mem_cons_of_mem _ hp)) hrest
          (fun p hp => hpaths p (List.mem_cons_of_mem _ hp)) h.2)

end

end Types

/-- What is written of such a type to a path of nonempty names, over whatever the destination holds,
is read back from that path as it was. -/
theorem MappedType.require_store_xml {t : MappedType} (ht : t.Placeable) {κ : Type} [KeySpace κ]
    {keys : List κ} (hkeys : NamesNonempty (KeySpace.path keys)) {x : t.Carrier}
    (hx : t.Every Primitive.Legible x) (node node' : Xml.Node)
    (hs : t.writer.store keys x node = .ok () node') : t.reader.require keys node' = .ok x :=
  (MappedType.placeable ht).require_of_store hx hkeys hs

/-- Empty lists beside a none and a tenth, merged into an element with an attribute and a repeated
name for the fields. -/
theorem MappedType.require_store_xml_merging :
    let t : MappedType := .record (.cons [.name "id"] (.option (.prim .bool))
      (.cons [.name "at", .name "tags"] (.list (.list (.prim .string)))
        (.cons [.name "at", .name "share"] (.prim .double) .nil)))
    let tenth : Double := .finite false 7205759403792794 (-56) (by decide)
    let node : Xml.Node := .element "r" [] [.element "item" [("id", "7")]
      [.element "at" [] [] "x", .element "at" [] [] "y"] "old"] ""
    ∃ node', t.writer.store ["item"] (none, [[], ["a"]], tenth, ()) node = .ok () node' ∧
      t.reader.require ["item"] node' = .ok (none, [[], ["a"]], tenth, ()) := by
  intro t tenth node
  have ht : t.Placeable :=
    ⟨by decide, ⟨by decide, by simp [MappedFields.paths, Path.Diverge]⟩, by decide, ⟨_, rfl⟩,
      trivial, trivial, trivial⟩
  have hx : t.Every Primitive.Legible (none, [[], ["a"]], tenth, ()) := by
    simp [t, MappedType.Every, MappedFields.Every, Primitive.Legible]
  have hkeys : NamesNonempty (KeySpace.path ["item"]) := by decide
  exact ⟨_, rfl, MappedType.require_store_xml ht hkeys hx node _ rfl⟩

end DataTree
