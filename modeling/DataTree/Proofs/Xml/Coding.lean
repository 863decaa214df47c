import DataTree.Proofs.Coding.Failure
import DataTree.Proofs.Coding.RoundTrip
import DataTree.Proofs.Xml.Leaf

namespace DataTree

namespace Xml.Node

variable {place : Option String}

theorem placed_fieldNodes (place : Option String) (fields : List (String × Node)) :
    placed place (element "" [] (fieldNodes fields) "") =
      element (place.getD "") [] (fieldNodes fields) "" := by
  cases place <;> rfl

theorem isNull_fieldNodes {own : String} {fields : List (String × Node)} :
    Backend.isNull (element own [] (fieldNodes fields) "") = true ↔ fields = [] := by
  cases fields with
  | nil => exact iff_of_true rfl rfl
  | cons field rest => exact iff_of_false Bool.false_ne_true (List.cons_ne_nil _ _)

theorem isNull_placed_list {items : List Node} :
    Backend.isNull (placed place (.list items)) = true ↔ place.isSome = true ∧ items = [] := by
  cases place with
  | none => exact iff_of_false Bool.false_ne_true fun h => Bool.false_ne_true h.1
  | some name =>
      rw [placed, named, namedItems_eq_map]
      cases items with
      | nil => exact iff_of_true rfl ⟨rfl, rfl⟩
      | cons item items => exact iff_of_false Bool.false_ne_true fun h => List.cons_ne_nil _ _ h.2

theorem items_placed_list (place : Option String) (items : List Node) :
    Backend.items (placed place (.list items)) =
      some (items.map (placed (place.map fun _ => itemName))) := by
  cases place with
  | none =>
      have hsame : placed none = id := rfl
      rw [Option.map_none, hsame, List.map_id]
      rfl
  | some name =>
      have hkind : kind (element name [] (items.map (named itemName)) "") ≠ .scalar .string := by
        rw [kind]
        split <;> simp
      show items? _ = _
      rw [placed, named, namedItems_eq_map, items?, if_neg hkind]
      rfl

theorem isNull_placed_text {s : String} :
    Backend.isNull (placed place (.text s)) = true ↔ place.isSome = true ∧ s = "" := by
  cases place with
  | none => exact iff_of_false Bool.false_ne_true fun h => Bool.false_ne_true h.1
  | some name =>
      by_cases hs : s = ""
      · subst hs
        exact iff_of_true rfl ⟨rfl, rfl⟩
      · refine iff_of_false ?_ fun h => hs h.2
        show ¬ (kind (element name [] [] s) == .null) = true
        rw [kind, if_neg (by simp), if_pos hs]
        exact Bool.false_ne_true

theorem scalar_placed_text {s : String} (h : ¬ Backend.isNull (placed place (.text s)) = true)
    (hint : ScalarKind) :
    Backend.scalar (placed place (.text s)) hint = .ok (.leaf (parseScalar s hint)) := by
  cases place with
  | none => rfl
  | some name =>
      have hs : s ≠ "" := fun he => h (isNull_placed_text.2 ⟨rfl, he⟩)
      exact scalar_bears hs (.element name) hint

theorem insertEach_fresh {α : Type} {f : α → Except DataTree.Error Node}
    {pairs : List (String × α)} (hd : Fields.Distinct pairs) {node : Node}
    (h : insertEach f pairs Backend.object = .ok node) :
    ∃ fields, node = element "" [] (fieldNodes fields) "" ∧
      Fields.Pointwise (fun x y => f x = .ok y) pairs fields := by
  have happend {done : List (String × Node)} {name : String} (hname : name ∉ Fields.names done)
      (y : Node) : Backend.insertField name y (element "" [] (fieldNodes done) "") =
        .ok () (element "" [] (fieldNodes (done ++ [(name, y)])) "") := by
    rw [← place_fieldNodes_of_notMem hname]
    rfl
  have hempty : insertEach f pairs (element "" [] (fieldNodes []) "") = .ok node := h
  exact insertEach_appended happend hd (by simp [Fields.names]) hempty

end Xml.Node

open Xml.Node (placed named fieldNodes)

namespace Codable

section Entries

variable {α : Type}

theorem map_eq_ok_of_names {β : Type} {outcome : Except Error (List (String × α))}
    {make : List (String × α) → β} {entries : List (String × α)} {map : β}
    (hnames : ∀ found, outcome = .ok found → Fields.names found = Fields.names entries)
    (hmake : ∀ {found}, Fields.names found = Fields.names entries →
      (make found = map ↔ found = entries)) :
    outcome.map make = .ok map ↔ outcome = .ok entries := by
  rw [map_eq_ok]
  constructor
  · rintro ⟨found, hfound, hmap⟩
    rw [hfound, (hmake (hnames found hfound)).1 hmap]
  · intro h
    exact ⟨entries, h, (hmake rfl).2 rfl⟩

variable {f : Xml.Node → Except Error α} {g : α → Except Error Xml.Node}
  {entries : List (String × α)} (hd : Fields.Distinct entries) {node : Xml.Node}
  (hmade : insertEach g entries Backend.object = .ok node) (place : Option String)

include hd hmade

theorem isNull_placed_object : Backend.isNull (placed place node) = true ↔ entries = [] := by
  obtain ⟨fields, rfl, hfields⟩ := Xml.Node.insertEach_fresh hd hmade
  rw [Xml.Node.placed_fieldNodes, Xml.Node.isNull_fieldNodes]
  cases hfields with
  | nil => exact iff_of_true rfl rfl
  | cons => exact iff_of_false (List.cons_ne_nil _ _) (List.cons_ne_nil _ _)

theorem readEntries_placed {found : List (String × α)} :
    readEntries f (placed place node) = .ok found ↔ entries ≠ [] ∧
      Fields.names found = Fields.names entries ∧
      ∀ entry ∈ found, readField f (placed place node) entry.1 = .ok entry.2 := by
  obtain ⟨fields, rfl, hfields⟩ := Xml.Node.insertEach_fresh hd hmade
  have hdistinct : Fields.Distinct fields := by
    rw [Fields.Distinct, hfields.names_eq]
    exact hd
  rw [Xml.Node.placed_fieldNodes, readEntries]
  by_cases hne : fields = []
  · subst hne
    cases hfields
    have hkind : Backend.kind (Xml.Node.element (place.getD "") [] (fieldNodes []) "") ≠
        .object := by
      rintro ⟨⟩
    rw [if_neg hkind]
    exact iff_of_false (by simp) fun h => h.1 rfl
  · have hentries : entries ≠ [] := by
      rintro rfl
      cases hfields
      exact hne rfl
    rw [if_pos (Xml.Node.kind_fieldNodes _ hne ""), eachEntry_eq_ok,
      Xml.Node.fieldNames_fieldNodes hdistinct, hfields.names_eq, and_iff_right hentries]

theorem readField_placed {β : Type} (f : Xml.Node → Except Error β) {entry : String × α}
    (hentry : entry ∈ entries) :
    ∃ y, g entry.2 = .ok y ∧ readField f (placed place node) entry.1 = f (named entry.1 y) := by
  obtain ⟨fields, rfl, hfields⟩ := Xml.Node.insertEach_fresh hd hmade
  obtain ⟨y, hy, hg⟩ := hfields.lookup hd hentry
  have hdistinct : Fields.Distinct fields := by
    rw [Fields.Distinct, hfields.names_eq]
    exact hd
  refine ⟨y, hg, ?_⟩
  rw [Xml.Node.placed_fieldNodes, readField, Xml.Node.field_fieldNodes hdistinct, hy]
  rfl

theorem readEntries_placed_self {p : α → Prop}
    (hpart : ∀ {x y}, g x = .ok y → ∀ name, f (named name y) = .ok x ↔ p x) :
    readEntries f (placed place node) = .ok entries ↔
      entries ≠ [] ∧ ∀ entry ∈ entries, p entry.2 := by
  rw [readEntries_placed hd hmade, eq_self, true_and]
  refine and_congr_right fun _ => forall₂_congr fun entry hentry => ?_
  obtain ⟨y, hy, hread⟩ := readField_placed hd hmade place f hentry
  rw [hread, hpart hy]

end Entries

variable {D : Empty → Type}

/-- An empty element is all that becomes of the value, where an empty list and an empty text become
one once they are placed. -/
def Vanishes (placed : Bool) : (t : Codable Empty) → t.Carrier D → Prop
  | prim p, x => placed = true ∧ ¬ p.Legible x
  | list _, xs => placed = true ∧ xs = []
  | option _, none => True
  | option content, some x => content.Vanishes placed x
  | boxed content, x => content.Vanishes placed x
  | sortedMap _, map => map.entries = []
  | dictionary _, map => map.entries = []
  | _, _ => False

/-- No empty element is taken for something else: there are no empty maps, options hold nothing that
becomes an empty element, and no text within a map is empty. Without empty texts and without options
around options, this leaves out the empty maps and, within maps, the options of empty lists. -/
def Told (placed : Bool) : (t : Codable Empty) → t.Carrier D → Prop
  | prim p, x => placed = true → p.Legible x
  | list item, xs => ∀ x ∈ xs, item.Told placed x
  | option content, found => ∀ x ∈ found, ¬ content.Vanishes placed x ∧ content.Told placed x
  | boxed content, x => content.Told placed x
  | sortedMap content, map => map.entries ≠ [] ∧ ∀ entry ∈ map.entries, content.Told true entry.2
  | dictionary content, map => map.entries ≠ [] ∧ ∀ entry ∈ map.entries, content.Told true entry.2
  | _, _ => True

section Placed

variable {made : (y : Empty) → D y → Except Error Xml.Node}

theorem isNull_placed_prim {p : Primitive} {x : p.Carrier} {node : Xml.Node}
    (h : writeLeaf p x = .ok node) (place : Option String) :
    Backend.isNull (placed place node) = true ↔ place.isSome = true ∧ ¬ p.Legible x := by
  obtain ⟨s, rfl, hs, -⟩ := Xml.Node.writeLeaf_eq_text h
  exact Xml.Node.isNull_placed_text.trans (and_congr_right fun _ => hs)

theorem readPrim_placed {p : Primitive} {x : p.Carrier} {node : Xml.Node}
    (h : writeLeaf p x = .ok node) (place : Option String) :
    readPrim p (placed place node) = .ok x ↔ (place.isSome = true → p.Legible x) := by
  have hnull := isNull_placed_prim h place
  rw [← not_not (a := p.Legible x), ← not_and, ← hnull, readPrim]
  split
  next hvanishes => exact iff_of_false (by simp) fun hshown => hshown hvanishes
  next hshown =>
    obtain ⟨s, rfl, -, hread⟩ := Xml.Node.writeLeaf_eq_text h
    refine iff_of_true ?_ hshown
    rw [readLeaf, Xml.Node.scalar_placed_text hshown]
    exact mapError_eq_ok.2 hread

theorem isNull_placed {t : Codable Empty} (ht : t.Typed) {x : t.Carrier D} {node : Xml.Node}
    (h : t.render made x = .ok node) (place : Option String) :
    Backend.isNull (placed place node) = true ↔ t.Vanishes place.isSome x := by
  induction t generalizing node with
  | prim p => exact isNull_placed_prim (mapError_eq_ok.1 h) place
  | value => exact ht.elim
  | list item ih =>
      obtain ⟨nodes, hnodes, rfl⟩ := map_eq_ok.1 h
      have hempty : nodes = [] ↔ x = [] := by
        rw [eachItem_eq_ok_iff] at hnodes
        rw [← List.length_eq_zero_iff, ← hnodes.length_eq, List.length_eq_zero_iff]
      exact Xml.Node.isNull_placed_list.trans (and_congr_right fun _ => hempty)
  | option content ih =>
      cases x with
      | none =>
          cases h
          exact iff_of_true (by cases place <;> rfl) trivial
      | some x => exact ih ht h
  | boxed content ih => exact ih ht h
  | sortedMap content ih => exact isNull_placed_object (SortedMap.distinct x) h place
  | dictionary content ih => exact isNull_placed_object (Dictionary.distinct x) h place
  | custom y => exact y.elim

theorem read_placed {t : Codable Empty} (ht : t.Typed) {x : t.Carrier D} {node : Xml.Node}
    (h : t.render made x = .ok node) (place : Option String) :
    t.read (fun y => y.elim) (placed place node) = .ok x ↔ t.Told place.isSome x := by
  induction t generalizing node place with
  | prim p => exact readPrim_placed (mapError_eq_ok.1 h) place
  | value => exact ht.elim
  | list item ih =>
      obtain ⟨nodes, hnodes, rfl⟩ := map_eq_ok.1 h
      have hplace : (place.map fun _ => Xml.itemName).isSome = place.isSome := Option.isSome_map
      show readItems _ (placed place (.list nodes)) = _ ↔ _
      rw [readItems, Xml.Node.items_placed_list]
      show eachItem _ 0 (nodes.map _) = _ ↔ _
      rw [eachItem_eq_ok_iff, List.forall₂_map_left_iff]
      refine forall₂_iff_forall (eachItem_eq_ok_iff.1 hnodes) fun y _ node hy => ?_
      rw [ih ht hy, hplace]
  | option content ih =>
      rw [read]
      cases x with
      | none =>
          cases h
          exact iff_of_true (if_pos (by cases place <;> rfl))
            fun x hx => (Option.not_mem_none x hx).elim
      | some x =>
          have hnull := isNull_placed (t := content) ht h place
          have hread := ih ht h place
          by_cases hvanishes : content.Vanishes place.isSome x
          · rw [if_pos (hnull.2 hvanishes)]
            exact iff_of_false (by simp) fun htold => (htold x rfl).1 hvanishes
          · rw [if_neg (mt hnull.1 hvanishes), map_eq_ok]
            simp only [Option.some.injEq, exists_eq_right, hread, Told, Option.mem_def,
              forall_eq', hvanishes, not_false_eq_true, true_and]
  | boxed content ih => exact ih ht h place
  | sortedMap content ih =>
      have hd := SortedMap.distinct x
      have hnames {found : List (String × content.Carrier D)}
          (hfound : readEntries (content.read fun y => y.elim) (placed place node) = .ok found) :=
        ((readEntries_placed hd h place).1 hfound).2.1
      rw [read, map_eq_ok_of_names (fun _ => hnames) SortedMap.ofEntries_eq_iff]
      exact readEntries_placed_self hd h place fun hy name => ih ht hy (some name)
  | dictionary content ih =>
      have hd := Dictionary.distinct x
      have hnames {found : List (String × content.Carrier D)}
          (hfound : readEntries (content.read fun y => y.elim) (placed place node) = .ok found) :=
        ((readEntries_placed hd h place).1 hfound).2.1
      rw [read, map_eq_ok_of_names (fun _ => hnames) Dictionary.ofEntries_eq_iff]
      exact readEntries_placed_self hd h place fun hy name => ih ht hy (some name)
  | custom y => exact y.elim

end Placed

/-- What is encoded in XML under any naming policy is decoded as it was, under that policy and under
every other one, exactly where it can be told. -/
theorem ofTree_eq_iff_told {U : Type} {t : Codable Empty} (ht : t.Typed) {x : t.Carrier D}
    {tree : Xml.Node} (naming naming' : Naming) (user user' : U)
    (h : (t.toTree (fun y => y.elim) naming user x).1 = .ok tree) :
    (t.ofTree (fun y => y.elim) naming' user' tree).1 = .ok x ↔ t.Told false x := by
  rw [toTree_eq_render] at h
  rw [ofTree_eq_read]
  exact read_placed ht h none

/-- Empty lists in lists and in maps, nones in both, and a text beside a list without items. -/
theorem ofTree_eq_iff_told_empty :
    let t : Codable Empty :=
      .list (.sortedMap (.list (.option (.dictionary (.boxed (.prim .string))))))
    let inner : Dictionary String := ⟨[("k", "v")], by simp [Fields.Distinct, Fields.names]⟩
    let map : SortedMap (List (Option (Dictionary String))) :=
      ⟨[("a", []), ("b", [none, some inner])], List.pairwise_pair.2 (by decide)⟩
    let x : t.Carrier (fun y => y.elim) := [map]
    ∃ tree : Xml.Node, (t.toTree (fun y => y.elim) .snake () x).1 = .ok tree ∧
      (t.ofTree (fun y => y.elim) .upperCamel () tree).1 = .ok x := by
  intro t inner map x
  have hmade : (t.toTree (fun y => y.elim) .snake () x).1 = .ok (Xml.Node.list [.element "" []
      [.element "a" [] [] "", .element "b" []
        [.element "item" [] [] "", .element "item" [] [.element "k" [] [] "v"] ""] ""] ""]) := by
    rw [toTree_eq_render]
    rfl
  have ht : t.Typed := trivial
  have htold : t.Told false x := by
    refine List.forall_mem_singleton.2 ⟨List.cons_ne_nil _ _, List.forall_mem_cons.2
      ⟨List.forall_mem_nil _, List.forall_mem_singleton.2 (List.forall_mem_cons.2
        ⟨nofun, List.forall_mem_singleton.2 ?_⟩)⟩⟩
    intro found hfound
    cases hfound
    exact ⟨List.cons_ne_nil _ _, List.cons_ne_nil _ _,
      List.forall_mem_singleton.2 fun _ => (by decide : "v" ≠ "")⟩
  exact ⟨_, hmade, (ofTree_eq_iff_told ht .snake .upperCamel () () hmade).2 htold⟩

/-- An empty map does not come back, and an empty list of an option in a map comes back as none. -/
theorem forgets_empty :
    let map : Codable Empty := .sortedMap (.prim (.int .int64))
    let lists : Codable Empty := .sortedMap (.option (.list (.prim (.int .int64))))
    let entry {α : Type} (x : α) : SortedMap α := ⟨[("a", x)], List.pairwise_singleton _ _⟩
    let tree : Xml.Node := .element "" [] [.element "a" [] [] ""] ""
    (map.toTree (fun y => y.elim) .identity () (.empty : map.Carrier fun y => y.elim)).1 =
        .ok Xml.Node.empty ∧
      (map.ofTree (fun y => y.elim) .identity () Xml.Node.empty).1 =
        (.error (.root .valueNotFound) : Except Error (map.Carrier fun y => y.elim)) ∧
      (lists.toTree (fun y => y.elim) .identity ()
        (entry (some []) : lists.Carrier fun y => y.elim)).1 = .ok tree ∧
      (lists.ofTree (fun y => y.elim) .identity () tree).1 =
        .ok (entry none : lists.Carrier fun y => y.elim) :=
  ⟨rfl, rfl, rfl, rfl⟩

end Codable

end DataTree
