import DataTree.Proofs.Mapping.Placeable
import DataTree.Proofs.Xml.Overwriting
import DataTree.Samples.Enums

namespace DataTree

open Xml.Node (Bears Grown Intact Misplaces)

def Backend.Stands {S : Type} [Backend S] (source : S) (path : Path) (node : S) : Prop :=
  Backend.get source path = .ok (some node) ∧ Backend.isNull node = false

namespace RawEnum

variable {α S : Type} [RawEnum α] [Backend S]

/-- All cases are listed, and no two of them have one raw value. -/
structure Distinct (α : Type) [RawEnum α] : Prop where
  listed : ∀ c : α, c ∈ cases (α := α)
  distinct : ∀ a b : α, (primitive α).equals (raw a) (raw b) = true → a = b

def Holds (node : S) (c : α) : Prop :=
  ∃ x, readLeaf (primitive α) node = .ok x ∧ (primitive α).equals x (raw c) = true

/-- What is wrong with a node that holds no raw value of the type, or one that no case has, where it
depends on whether a tree can hold that value. -/
inductive Refuses (α : Type) [RawEnum α] (node : S) : Fault → Prop
  | unreadable {fault : Fault} : readLeaf (primitive α) node = .error fault → Refuses α node fault
  | unmatched {x : (primitive α).Carrier} {v : Value} : readLeaf (primitive α) node = .ok x →
      (∀ c : α, (primitive α).equals x (raw c) = false) → (primitive α).toScalar x = .ok v →
      Refuses α node (.noCaseForRawValue v)
  | beyond {x : (primitive α).Carrier} {fault : Fault} : readLeaf (primitive α) node = .ok x →
      (∀ c : α, (primitive α).equals x (raw c) = false) → (primitive α).toScalar x = .error fault →
      Refuses α node fault

theorem ofRaw?_eq_some (h : Distinct α) {x : (primitive α).Carrier} {c : α} :
    ofRaw? x = some c ↔ (primitive α).equals x (raw c) = true := by
  constructor
  · intro hfound
    rw [ofRaw?] at hfound
    exact List.find?_some (p := fun c => (primitive α).equals x (raw c)) hfound
  · intro hc
    cases hfound : (ofRaw? x : Option α) with
    | none => exact absurd hc (List.find?_eq_none.1 hfound c (h.listed c))
    | some c' =>
        have hc' : (primitive α).equals x (raw c') = true :=
          List.find?_some (p := fun c => (primitive α).equals x (raw c)) hfound
        rw [h.distinct c' c (Primitive.equals_of_equals hc' hc)]

theorem ofRaw?_eq_none {x : (primitive α).Carrier}
    (h : ∀ c : α, (primitive α).equals x (raw c) = false) : (ofRaw? x : Option α) = none :=
  List.find?_eq_none.2 fun c _ => by rw [h c]; exact Bool.false_ne_true

theorem read_eq_ok (h : Distinct α) {node : S} {c : α} : read node = .ok c ↔ Holds node c := by
  simp only [Holds, ← ofRaw?_eq_some h, read]
  rw [bind_eq_ok]
  refine exists_congr fun x => and_congr_right fun _ => ?_
  split
  next c' hc' => rw [hc', Except.ok.injEq, Option.some.injEq]
  next hnone =>
    rw [hnone]
    refine iff_of_false (fun hok => ?_) nofun
    obtain ⟨v, -, herror⟩ := bind_eq_ok.1 hok
    cases herror

theorem read_of_refuses {node : S} {fault : Fault} (h : Refuses α node fault) :
    (read node : Except Fault α) = .error fault := by
  cases h with
  | unreadable hread => simp only [read, hread, bind, Except.bind]
  | unmatched hread hnone hscalar | beyond hread hnone hscalar =>
      simp only [read, hread, bind, Except.bind, ofRaw?_eq_none hnone, hscalar]

theorem readItems_of_refuses (h : Distinct α) {list node : S} {items : List S} {i : Nat}
    {fault : Fault} (hitems : Backend.items list = some items) (hi : items[i]? = some node)
    (hnull : Backend.isNull node = false) (hrefuses : Refuses α node fault)
    (hfront : ∀ j < i, ∀ x, items[j]? = some x →
      Backend.isNull x = false ∧ ∃ c : α, Holds x c) :
    (Reader.raw : Reader S α).readItems list = .error ⟨fault, [.index i]⟩ := by
  have hitem : ∀ x : S, Backend.isNull x = false →
      (if (Reader.raw : Reader S α).absent x then Except.error (.root .valueNotFound)
        else (Reader.raw : Reader S α).read x) = (read x).mapError Error.root := by
    intro x hx
    simp [hx]
  rw [Reader.readItems, hitems]
  refine (eachItem_of_error hi (e := .root fault) ?_ ?_ 0).trans ?_
  · rw [hitem node hnull, read_of_refuses hrefuses]
    rfl
  · intro j hj x hx
    obtain ⟨hxnull, c, hc⟩ := hfront j hj x hx
    exact ⟨c, by rw [hitem x hxnull, (read_eq_ok h).2 hc]; rfl⟩
  · rw [Nat.zero_add]
    rfl

/-- What reading an enumeration out of a tree comes to: at a path, at a path that may be empty, and
item by item. -/
structure ReadsCases (α S : Type) [RawEnum α] [Backend S] : Prop where
  require_eq_ok : ∀ {κ : Type} [KeySpace κ] {keys : List κ} {source node : S},
    Backend.Stands source (KeySpace.path keys) node → ∀ c : α,
      Reader.raw.require keys source = .ok c ↔ Holds node c
  optional_eq_ok : ∀ {κ : Type} [KeySpace κ] {keys : List κ} {source node : S},
    Backend.Stands source (KeySpace.path keys) node → ∀ c : α,
      Reader.raw.optional keys source = .ok (some c) ↔ Holds node c
  refused : ∀ {κ : Type} [KeySpace κ] {keys : List κ} {source node : S} {fault : Fault},
    Backend.Stands source (KeySpace.path keys) node → Refuses α node fault →
      (Reader.raw : Reader S α).require keys source = .error ⟨fault, KeySpace.path keys⟩ ∧
      (Reader.raw : Reader S α).optional keys source = .error ⟨fault, KeySpace.path keys⟩
  item_refused : ∀ {κ : Type} [KeySpace κ] {keys : List κ} {source list node : S} {items : List S}
    {i : Nat} {fault : Fault}, Backend.get source (KeySpace.path keys) = .ok (some list) →
    Backend.items list = some items → items[i]? = some node → Backend.isNull node = false →
    (∀ j < i, ∀ x, items[j]? = some x → Backend.isNull x = false ∧ ∃ c : α, Holds x c) →
    Refuses α node fault → (Reader.raw : Reader S α).list.require keys source =
      .error ⟨fault, KeySpace.path keys ++ [.index i]⟩

theorem readsCases (h : Distinct α) : ReadsCases α S where
  require_eq_ok hstands c := by
    simp [Reader.require_of_some hstands.1, hstands.2, read_eq_ok h]
  optional_eq_ok hstands c := by
    simp [Reader.optional_of_some hstands.1, hstands.2, read_eq_ok h]
  refused {κ _ keys source node fault} hstands hrefuses := by
    have hpath : (Error.root fault).within (KeySpace.path keys) = ⟨fault, KeySpace.path keys⟩ := by
      simp only [Error.within, Error.root, List.append_nil]
    simp [Reader.require_of_some hstands.1, Reader.optional_of_some hstands.1, hstands.2,
      read_of_refuses hrefuses, Except.mapError, Except.map, hpath]
  item_refused {κ _ keys source list node items i fault} hget hitems hi hnull hfront hrefuses := by
    rw [Reader.require_of_some hget, Reader.list_absent, Reader.listAbsent_of_items hitems,
      if_neg Bool.false_ne_true, Reader.list_read,
      readItems_of_refuses h hitems hi hnull hrefuses hfront]
    rfl

/-- Where the raw value of a case is read as the raw type, it is read as the case, unless it is not
equal to itself. -/
theorem require_of_prim (h : Distinct α) {κ : Type} [KeySpace κ] {keys : List κ} {source : S}
    {c : α} (hraw : (Reader.prim (primitive α)).require keys source = .ok (raw c)) :
    Reader.raw.require keys source = .ok c ↔ (primitive α).equals (raw c) (raw c) = true := by
  obtain ⟨node, hget, hnull, hread⟩ := Reader.require_eq_ok.1 hraw
  have hread := mapError_eq_ok.1 hread
  refine ((readsCases h).require_eq_ok ⟨hget, hnull⟩ c).trans ⟨?_, fun hc => ⟨raw c, hread, hc⟩⟩
  rintro ⟨x, hx, hc⟩
  cases hread.symm.trans hx
  exact hc

section Xml

variable {κ : Type} [KeySpace κ] {keys : List κ} {tree tree' node : Xml.Node} {c : α}

theorem bears_of_intact {s : String} {m : Xml.Node} (h : Intact (.text s) m) : Bears s m := by
  cases h with
  | same => exact .text
  | named name => exact .element name

theorem readLeaf_intact {p : Primitive} {x : p.Carrier} {s : String} {m : Xml.Node}
    (hm : Intact (.text s) m) (hnull : Backend.isNull m = false)
    (hread : p.ofScalar (.leaf (Xml.Node.parseScalar s p.hint)) = .ok x) :
    readLeaf p m = .ok x := by
  cases hm with
  | same => exact hread
  | named name =>
      have hs : s ≠ "" := by
        rintro rfl
        cases hnull
      exact (Xml.Node.readLeaf_bears hs hread (.element name)).2

theorem wrote_of_store (hs : Writer.raw.store keys c tree = .ok () tree') :
    ∃ s, (RawEnum.write c : Except Fault Xml.Node) = .ok (.text s) ∧
      Backend.Wrote (.text s) false (KeySpace.path keys) tree tree' := by
  obtain ⟨node, hwrite, hset⟩ := Writer.store_eq_ok.1 hs
  have hwrite := mapError_eq_ok.1 hwrite
  obtain ⟨s, rfl, -⟩ := Xml.Node.writeLeaf_eq_text hwrite
  refine ⟨s, hwrite, Backend.wrote_of_setAt ?_⟩
  rw [← Backend.setAt_merge]
  · exact hset
  · exact nofun

theorem require_stored (h : Distinct α) (hwrite : RawEnum.write c = .ok node)
    (hplace : ¬ Misplaces node (KeySpace.path keys) tree)
    (hs : Writer.raw.store keys c tree = .ok () tree') :
    ∃ m, Backend.get tree' (KeySpace.path keys) = .ok (some m) ∧
      ((primitive α).Legible (raw c) → Backend.isNull m = false) ∧
      (Reader.raw.require keys tree' = .ok c ↔
        Backend.isNull m = false ∧ (primitive α).equals (raw c) (raw c) = true) := by
  obtain ⟨s, hwritten, w⟩ := wrote_of_store hs
  cases hwrite.symm.trans hwritten
  obtain ⟨m, hget, hm⟩ := Xml.Node.get_wrote_intact w hplace
  obtain ⟨_, htext, hlegible, hread⟩ := Xml.Node.writeLeaf_eq_text hwrite
  cases htext
  refine ⟨m, hget, fun hraw => ?_, ?_⟩
  · have hs : s ≠ "" := fun hempty => hlegible.1 hempty hraw
    exact (Xml.Node.readLeaf_bears hs hread (bears_of_intact hm)).1
  · cases hnull : Backend.isNull m with
    | true =>
        rw [Reader.require_of_some hget, Reader.raw_absent, hnull, if_pos rfl]
        exact iff_of_false nofun nofun
    | false =>
        have hraw : (Reader.prim (primitive α)).require keys tree' = .ok (raw c) :=
          Reader.require_of_get hget hnull (mapError_eq_ok.2 (readLeaf_intact hm hnull hread))
        rw [require_of_prim h hraw, and_iff_right rfl]

theorem require_displaced (hwrite : RawEnum.write c = .ok node)
    (hplace : Misplaces node (KeySpace.path keys) tree) (hgrown : Grown tree)
    (hs : Writer.raw.store keys c tree = .ok () tree') :
    (Reader.raw : Reader Xml.Node α).require keys tree' =
      .error ⟨.valueNotFound, KeySpace.path keys⟩ := by
  obtain ⟨s, hwritten, w⟩ := wrote_of_store hs
  cases hwrite.symm.trans hwritten
  obtain ⟨own, attributes, children, content, hparent, hget⟩ :=
    Xml.Node.get_wrote_misplaced w hplace
  obtain ⟨rfl, -⟩ := Xml.Node.bare_element.1 (hgrown.bare.get hparent)
  exact Reader.require_of_none hget

end Xml

/-- What is read back where a case was stored, whatever stood there. In XML an element with an empty
text is a null, and over a child of the empty name nothing is read back, since the text takes its
place without a name. -/
structure ReadsBack (c : α) : Prop where
  value : ∀ {κ : Type} [KeySpace κ] {keys : List κ} {tree tree' : Value},
    Writer.raw.store keys c tree = .ok () tree' →
      (Reader.raw.require keys tree' = .ok c ↔ (primitive α).equals (raw c) (raw c) = true)
  json : ∀ {κ : Type} [KeySpace κ] {keys : List κ} {tree tree' : Json},
    Writer.raw.store keys c tree = .ok () tree' →
      (Reader.raw.require keys tree' = .ok c ↔ (primitive α).equals (raw c) (raw c) = true)
  xml : ∀ {κ : Type} [KeySpace κ] {keys : List κ} {tree tree' node : Xml.Node},
    RawEnum.write c = .ok node → ¬ Misplaces node (KeySpace.path keys) tree →
    Writer.raw.store keys c tree = .ok () tree' →
      ∃ m, Backend.get tree' (KeySpace.path keys) = .ok (some m) ∧
        ((primitive α).Legible (raw c) → Backend.isNull m = false) ∧
        (Reader.raw.require keys tree' = .ok c ↔
          Backend.isNull m = false ∧ (primitive α).equals (raw c) (raw c) = true)
  displaced : ∀ {κ : Type} [KeySpace κ] {keys : List κ} {tree tree' node : Xml.Node},
    RawEnum.write c = .ok node → Misplaces node (KeySpace.path keys) tree → Grown tree →
    Writer.raw.store keys c tree = .ok () tree' →
      (Reader.raw : Reader Xml.Node α).require keys tree' =
        .error ⟨.valueNotFound, KeySpace.path keys⟩

theorem readsBack (h : Distinct α) (c : α) : ReadsBack c where
  value hs := require_of_prim h ((Lawful.prim _).require_of_store hs)
  json hs := require_of_prim h ((Lawful.prim _).require_of_store hs)
  xml := require_stored h
  displaced := require_displaced

/-- An enumeration goes through its raw values: a node is read as the case whose raw value it holds,
an unknown raw value is reported as such and at its place if a tree can hold it, and what was
written is read back if its raw value is equal to itself. -/
theorem maps_raw_values (h : Distinct α) :
    (∀ {S : Type} [Backend S], ReadsCases α S) ∧
    (∀ x : (primitive α).Carrier,
      ((primitive α).Storable x →
        ∃ v, (primitive α).toScalar x = .ok v ∧ (primitive α).ofScalar v = .ok x) ∧
      (¬ (primitive α).Storable x →
        ∃ text, (primitive α).toScalar x = .error (.numberOutOfRange text "int"))) ∧
    ∀ c : α, ReadsBack c :=
  ⟨readsCases h, fun _ => ⟨Primitive.toScalar_of_storable, Primitive.toScalar_of_not_storable⟩,
    readsBack h⟩

theorem distinct_level : Distinct Samples.Level where
  listed c := by cases c <;> simp [cases]
  distinct a b h := by
    cases a <;> cases b <;> first | rfl | exact absurd h (by decide)

/-- The second of two levels is unknown. In XML a level is read back from under an empty name. -/
theorem maps_raw_values_level :
    let tree : Value := .object [("levels", .array [.leaf (.int 2), .leaf (.int 7)])]
    (Reader.raw : Reader Value Samples.Level).list.require ["levels"] tree =
        .error ⟨.noCaseForRawValue (.leaf (.int 7)), [.name "levels", .index 1]⟩ ∧
      ∃ stored : Xml.Node,
        Writer.raw.store [""] Samples.Level.high (.element "r" [] [] "") = .ok () stored ∧
        Reader.raw.require [""] stored = .ok Samples.Level.high := by
  intro tree
  obtain ⟨hreads, -, hback⟩ := maps_raw_values distinct_level
  refine ⟨?_, _, rfl, ?_⟩
  · have hitems : Backend.items (.array [.leaf (.int 2), .leaf (.int 7)] : Value) =
        some [.leaf (.int 2), .leaf (.int 7)] := rfl
    refine hreads.item_refused (i := 1) rfl hitems rfl rfl ?_
      (.unmatched (x := Samples.whole .nat64 7) rfl (fun c => ?_) rfl)
    · intro j hj x hx
      obtain rfl := Nat.lt_one_iff.1 hj
      cases hx
      exact ⟨rfl, .high, Samples.whole .nat64 2, rfl, rfl⟩
    · cases c <;> decide
  · have hplace : ¬ Misplaces (.text "2") (KeySpace.path [""]) (.element "r" [] [] "") := by
      rintro (⟨hslot, -⟩ | ⟨-, hbelow⟩)
      · cases hslot
      · cases hbelow
    obtain ⟨m, -, hlegible, hiff⟩ := (hback .high).xml rfl hplace rfl
    exact hiff.2 ⟨hlegible trivial, rfl⟩

/-- An unknown raw value that is too large for a tree to hold is not reported as one. -/
theorem unknown_raw_value_unreported :
    let beyond : Double := .finite false 4503599627370497 11 (by decide)
    let node : Value := .leaf (.double beyond)
    Distinct Samples.Level ∧
      readLeaf (.int .nat64) node = .ok (Samples.whole .nat64 9223372036854777856) ∧
      (∀ c : Samples.Level,
        Primitive.equals (.int .nat64) (Samples.whole .nat64 9223372036854777856) (raw c) =
          false) ∧
      (Reader.raw : Reader Value Samples.Level).require ([] : List Key) node =
        .error ⟨.numberOutOfRange "9223372036854777856" "int", []⟩ := by
  refine ⟨distinct_level, rfl, fun c => ?_, rfl⟩
  cases c <;> decide

end RawEnum

end DataTree
