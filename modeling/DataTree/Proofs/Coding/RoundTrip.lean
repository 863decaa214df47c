import DataTree.Proofs.Coding.Decoded
import DataTree.Proofs.Coding.Encoded
import DataTree.Proofs.Tree.Recovery

namespace DataTree

namespace SortedMap

variable {α : Type}

theorem insertEntry_of_last {key : String} (x : α) {entries : List (String × α)}
    (h : ∀ entry ∈ entries, entry.1 < key) : insertEntry key x entries = entries ++ [(key, x)] := by
  induction entries with
  | nil => rfl
  | cons first rest ih =>
      obtain ⟨other, y⟩ := first
      have hlt : other < key := h (other, y) List.mem_cons_self
      have hne : other ≠ key := fun he => String.lt_irrefl key (he ▸ hlt)
      rw [insertEntry, if_neg (String.lt_asymm hlt), if_neg hne,
        ih fun entry hm => h entry (List.mem_cons_of_mem _ hm)]
      rfl

theorem distinct (map : SortedMap α) : Fields.Distinct map.entries := by
  apply List.pairwise_map.2
  refine List.Pairwise.imp ?_ map.sorted
  intro a b hlt he
  exact String.lt_irrefl b.1 (he ▸ hlt)

theorem entries_foldl {entries : List (String × α)} {map : SortedMap α}
    (h : Fields.Sorted (map.entries ++ entries)) :
    (entries.foldl (fun map (key, x) => map.insert key x) map).entries =
      map.entries ++ entries := by
  induction entries generalizing map with
  | nil => rw [List.foldl_nil, List.append_nil]
  | cons entry rest ih =>
      obtain ⟨key, x⟩ := entry
      have hlast : (map.insert key x).entries = map.entries ++ [(key, x)] :=
        insertEntry_of_last x fun entry hm =>
          (List.pairwise_append.1 h).2.2 entry hm (key, x) List.mem_cons_self
      rw [List.foldl_cons, ih (by rwa [hlast, List.append_assoc]), hlast, List.append_assoc]
      rfl

theorem ext {map other : SortedMap α} (h : map.entries = other.entries) : map = other := by
  cases map
  cases other
  cases h
  rfl

theorem ofEntries_entries (map : SortedMap α) : ofEntries map.entries = map :=
  ext (entries_foldl map.sorted)

theorem ofEntries_eq_iff {map : SortedMap α} {entries : List (String × α)}
    (h : Fields.names entries = Fields.names map.entries) :
    ofEntries entries = map ↔ entries = map.entries := by
  have hsorted : Fields.Sorted entries := by
    have hnames : (Fields.names map.entries).Pairwise (· < ·) := List.pairwise_map.2 map.sorted
    rw [← h] at hnames
    exact List.pairwise_map.1 hnames
  constructor
  · rintro rfl
    exact (congrArg SortedMap.entries (ofEntries_entries ⟨entries, hsorted⟩)).symm
  · rintro rfl
    exact ofEntries_entries map

end SortedMap

namespace Dictionary

variable {α : Type}

theorem entries_foldl (entries : List (String × α)) (map : Dictionary α) :
    (entries.foldl (fun map (key, x) => map.insert key x) map).entries =
      Fields.putAll entries map.entries := by
  induction entries generalizing map with
  | nil => rfl
  | cons entry rest ih => exact ih (map.insert entry.1 entry.2)

theorem ext {map other : Dictionary α} (h : map.entries = other.entries) : map = other := by
  cases map
  cases other
  cases h
  rfl

theorem ofEntries_entries (map : Dictionary α) : ofEntries map.entries = map :=
  ext ((entries_foldl map.entries empty).trans (Fields.ofPairs_of_distinct map.distinct))

theorem ofEntries_eq_iff {map : Dictionary α} {entries : List (String × α)}
    (h : Fields.names entries = Fields.names map.entries) :
    ofEntries entries = map ↔ entries = map.entries := by
  have hdistinct : Fields.Distinct entries := by
    rw [Fields.Distinct, h]
    exact map.distinct
  constructor
  · rintro rfl
    exact (congrArg Dictionary.entries (ofEntries_entries ⟨entries, hdistinct⟩)).symm
  · rintro rfl
    exact ofEntries_entries map

end Dictionary

namespace Codable

def nullable {X : Type} : Codable X → Bool
  | value | option _ => true
  | boxed content => content.nullable
  | _ => false

/-- Types whose values can be told apart once written. A null is the none of one option only, so
that an option is never around another one or around a value, directly or through a box. -/
def Regular : Codable Empty → Prop
  | list item => item.Regular
  | option content => content.nullable = false ∧ content.Regular
  | boxed content | sortedMap content | dictionary content => content.Regular
  | _ => True

variable {D : Empty → Type}

/-- The values within have distinct field names, as all that are built by insertion. -/
def Distinct : (t : Codable Empty) → t.Carrier D → Prop
  | value, v => v.Distinct
  | list item, xs => ∀ x ∈ xs, item.Distinct x
  | option content, found => ∀ x ∈ found, content.Distinct x
  | boxed content, x => content.Distinct x
  | sortedMap content, map => ∀ entry ∈ map.entries, content.Distinct entry.2
  | dictionary content, map => ∀ entry ∈ map.entries, content.Distinct entry.2
  | _, _ => True

/-- Wherever a map was encoded there is an object with the keys of the map as names, as they are and
in their order. -/
def KeysKept {L : Type} : (t : Codable Empty) → t.Carrier D → Tree L → Prop
  | list item, xs, tree => ∃ items, tree = .array items ∧ List.Forall₂ item.KeysKept xs items
  | option content, some x, tree => content.KeysKept x tree
  | boxed content, x, tree => content.KeysKept x tree
  | sortedMap content, map, tree =>
    ∃ fields, tree = .object fields ∧ Fields.Pointwise content.KeysKept map.entries fields
  | dictionary content, map, tree =>
    ∃ fields, tree = .object fields ∧ Fields.Pointwise content.KeysKept map.entries fields
  | _, _, _ => True

section Trees

variable {L U : Type} [Leaf L] [LawfulLeaf L] {made : (x : Empty) → D x → Except Error (Tree L)}

theorem isNull_render {t : Codable Empty} (ht : t.nullable = false) {x : t.Carrier D}
    {tree : Tree L} (h : t.render made x = .ok tree) : Backend.isNull tree = false := by
  induction t generalizing tree with
  | prim p =>
      obtain ⟨-, l, rfl, hl⟩ := readLeaf_writeLeaf (mapError_eq_ok.1 h)
      rw [Tree.isNull_leaf, ← Option.not_isSome, hl]
      rfl
  | value => cases ht
  | list item ih =>
      obtain ⟨nodes, -, rfl⟩ := map_eq_ok.1 h
      rfl
  | option content ih => cases ht
  | boxed content ih => exact ih ht h
  | sortedMap content ih =>
      obtain ⟨fields, rfl, -⟩ := Tree.insertEach_fresh (SortedMap.distinct x) h
      rfl
  | dictionary content ih =>
      obtain ⟨fields, rfl, -⟩ := Tree.insertEach_fresh (Dictionary.distinct x) h
      rfl
  | custom y => exact y.elim

omit [LawfulLeaf L] in
theorem keysKept_render {t : Codable Empty} {x : t.Carrier D} {tree : Tree L}
    (h : t.render made x = .ok tree) : t.KeysKept x tree := by
  induction t generalizing tree with
  | list item ih =>
      obtain ⟨nodes, hnodes, rfl⟩ := map_eq_ok.1 h
      exact ⟨nodes, rfl, forall₂_eachItem hnodes fun x _ y hy => ih hy⟩
  | option content ih =>
      cases x with
      | none => trivial
      | some x => exact ih h
  | boxed content ih => exact ih h
  | sortedMap content ih =>
      obtain ⟨fields, rfl, hfields⟩ := Tree.insertEach_fresh (SortedMap.distinct x) h
      exact ⟨fields, rfl, hfields.imp fun field _ y hy => ih hy⟩
  | dictionary content ih =>
      obtain ⟨fields, rfl, hfields⟩ := Tree.insertEach_fresh (Dictionary.distinct x) h
      exact ⟨fields, rfl, hfields.imp fun field _ y hy => ih hy⟩
  | _ => trivial

omit [LawfulLeaf L] in
theorem readEntries_insertEach {α : Type} {f : Tree L → Except Error α}
    {g : α → Except Error (Tree L)} {entries : List (String × α)} (hd : Fields.Distinct entries)
    (hf : ∀ entry ∈ entries, ∀ y, g entry.2 = .ok y → f y = .ok entry.2) {tree : Tree L}
    (h : insertEach g entries Backend.object = .ok tree) : readEntries f tree = .ok entries := by
  obtain ⟨fields, rfl, hfields⟩ := Tree.insertEach_fresh hd h
  show eachEntry (readField f _) (Fields.names fields) = _
  rw [hfields.names_eq]
  refine eachEntry_names fun entry hm => ?_
  obtain ⟨y, hfind, hy⟩ := hfields.lookup hd hm
  have hfield : Backend.field (Tree.object fields) entry.1 = .ok (some y) :=
    congrArg Except.ok hfind
  rw [readField, hfield]
  exact hf entry hm y hy

theorem read_render {t : Codable Empty} (ht : t.Regular) {x : t.Carrier D} (hx : t.Distinct x)
    {tree : Tree L} (h : t.render made x = .ok tree) :
    t.read (fun y => y.elim) tree = .ok x := by
  induction t generalizing tree with
  | prim p =>
      have hnull := isNull_render (t := prim p) rfl h
      rw [read, readPrim, hnull]
      exact mapError_eq_ok.2 (readLeaf_writeLeaf (mapError_eq_ok.1 h)).1
  | value => exact Tree.toValue_of_ofValue hx h
  | list item ih =>
      obtain ⟨nodes, hnodes, rfl⟩ := map_eq_ok.1 h
      exact eachItem_inverse_of_mem (fun x hm y hy => ih ht (hx x hm) hy) hnodes 0
  | option content ih =>
      cases x with
      | none =>
          cases h
          exact if_pos Tree.isNull_null
      | some x =>
          have hnull := isNull_render ht.1 h
          rw [read, hnull, ih ht.2 (hx x rfl) h]
          rfl
  | boxed content ih => exact ih ht hx h
  | sortedMap content ih =>
      have hall := readEntries_insertEach (SortedMap.distinct x)
        (fun entry hm y hy => ih ht (hx entry hm) hy) h
      rw [read, hall]
      exact congrArg Except.ok (SortedMap.ofEntries_entries x)
  | dictionary content ih =>
      have hall := readEntries_insertEach (Dictionary.distinct x)
        (fun entry hm y hy => ih ht (hx entry hm) hy) h
      rw [read, hall]
      exact congrArg Except.ok (Dictionary.ofEntries_entries x)
  | custom y => exact y.elim

theorem takes_render {own : (x : Empty) → Decoding (Tree L) U (D x)} {t : Codable Empty}
    (ht : t.Regular) {x : t.Carrier D} (hx : t.Distinct x) {tree : Tree L}
    (h : t.render made x = .ok tree) : (t.decode own).Takes tree x := by
  have hgives : (t.decode own).Gives tree (t.read (fun y => y.elim) tree) :=
    decode_gives (fun y => y.elim) t tree
  rwa [read_render ht hx h] at hgives

end Trees

/-- What is encoded under any naming policy is decoded as it was, under that policy and under every
other one, and the keys of its maps are names in the tree. -/
theorem ofTree_of_toTree {U : Type} {t : Codable Empty} (ht : t.Regular) {x : t.Carrier D}
    (hx : t.Distinct x) (naming naming' : Naming) (user user' : U) :
    (∀ tree : Value, (t.toTree (fun y => y.elim) naming user x).1 = .ok tree →
      (t.ofTree (fun y => y.elim) naming' user' tree).1 = .ok x ∧ t.KeysKept x tree) ∧
    ∀ tree : Json, (t.toTree (fun y => y.elim) naming user x).1 = .ok tree →
      (t.ofTree (fun y => y.elim) naming' user' tree).1 = .ok x ∧ t.KeysKept x tree := by
  have hall {L : Type} [Leaf L] [LawfulLeaf L] (own : (y : Empty) → D y → Encoding (Tree L) U Unit)
      (own' : (y : Empty) → Decoding (Tree L) U (D y)) (tree : Tree L)
      (h : (t.toTree own naming user x).1 = .ok tree) :
      (t.ofTree own' naming' user' tree).1 = .ok x ∧ t.KeysKept x tree := by
    have hmakes : (t.encode own x).Makes (t.render (fun y => y.elim) x) :=
      encode_makes (fun y => y.elim) t x
    rw [toTree, hmakes.run] at h
    have htakes : (t.decode own').Takes tree x := takes_render ht hx h
    exact ⟨by rw [ofTree, htakes.run], keysKept_render h⟩
  exact ⟨hall _ _, hall _ _⟩

/-- Keys that no policy would leave alone, over a null beside an object that holds one. -/
theorem ofTree_of_toTree_renamed :
    let t : Codable Empty := .sortedMap (.list (.option (.dictionary (.boxed .value))))
    let inner : Dictionary Value :=
      ⟨[("first_name", Value.null), ("firstName", .object [("a b", .array [])])],
        by simp [Fields.Distinct, Fields.names]⟩
    let x : t.Carrier (fun y => y.elim) :=
      ⟨[("HTTPStatus", []), ("http_status", [none, some inner])],
        List.pairwise_pair.2 (by decide)⟩
    ∃ tree : Json, (t.toTree (fun y => y.elim) .snake () x).1 = .ok tree ∧
      (t.ofTree (fun y => y.elim) .upperCamel () tree).1 = .ok x ∧ t.KeysKept x tree := by
  intro t inner x
  have ht : t.Regular := ⟨rfl, trivial⟩
  have hinner : ∀ field ∈ inner.entries, field.2.Distinct :=
    List.forall_mem_cons.2 ⟨trivial, List.forall_mem_singleton.2
      (by simp [Tree.Distinct, Tree.DistinctFields, Tree.DistinctItems, Fields.Distinct,
        Fields.names])⟩
  have hx : t.Distinct x := by
    refine List.forall_mem_cons.2 ⟨List.forall_mem_nil _, List.forall_mem_singleton.2 ?_⟩
    refine List.forall_mem_cons.2 ⟨fun map hmap => ?_, List.forall_mem_singleton.2 ?_⟩
    · cases hmap
    · intro map hmap
      cases hmap
      exact hinner
  have hmade : (t.toTree (fun y => y.elim) .snake () x).1 =
      .ok (Tree.object [("HTTPStatus", .array []), ("http_status", .array [Backend.null,
        .object [("first_name", Backend.null), ("firstName", .object [("a b", .array [])])]])] :
        Json) := by
    have hmakes : (t.encode (fun y => y.elim) x : Encoding Json Unit Unit).Makes
        (t.render (fun y => y.elim) x) := encode_makes (fun y => y.elim) t x
    rw [toTree, hmakes.run]
    rfl
  exact ⟨_, hmade, (ofTree_of_toTree ht hx .snake .upperCamel () ()).2 _ hmade⟩

end Codable

end DataTree
