import DataTree.Decoder.Sequential
import DataTree.Json
import DataTree.Proofs.Backend.Coherent
import DataTree.Proofs.Backend.Reading

namespace DataTree

open Backend (HoldsFields)

namespace Backend

variable {S : Type} [Backend S]

/-- The items and the fields found one by one are those found at once, and the kind says which views
are offered. -/
structure ViewsAgree (node : S) : Prop where
  item_of_items : ∀ children, items node = some children → ∀ i, item node i = .ok children[i]?
  item_of_none : items node = none → ∀ i, item node i = .error (.expectedArray (kind node))
  mem_fieldNames : ∀ name, name ∈ fieldNames node ↔ ∃ child, field node name = .ok (some child)
  holdsFields : kind node = .object → HoldsFields node
  items_of_array : kind node = .array → ∃ children, items node = some children
  mismatch_iff : ∀ hint, (∃ expected got, scalar node hint = .error (.typeMismatch expected got)) ↔
    kind node = .null ∨ kind node = .array ∨ kind node = .object

theorem exists_toValue (hviews : ∀ node : S, ViewsAgree node)
    (hscalar : ∀ (node : S) (hint : ScalarKind), kind node = .scalar hint →
      ∃ v, scalar node hint = .ok v) (node : S) : ∃ v, toValue node = .ok v := by
  -- items and fields lie lower than their node, but need not be parts of it
  induction hh : height node using Nat.strongRecOn generalizing node with
  | ind n ih =>
      subst hh
      cases hkind : kind node with
      | null => exact ⟨_, toValue_of_null hkind⟩
      | scalar hint =>
          obtain ⟨v, hv⟩ := hscalar node hint hkind
          exact ⟨v, by rw [toValue_of_scalar hkind, hv]; rfl⟩
      | array =>
          obtain ⟨children, hitems⟩ := (hviews node).items_of_array hkind
          obtain ⟨vs, hvs⟩ := exists_eachItem (fun y hy => ih _ (items_lt hitems hy) y rfl) 0
          exact ⟨_, by rw [toValue_of_array hkind hitems, hvs]; rfl⟩
      | object =>
          have hread (name : String) : ∃ y, fieldValue node name = .ok y := by
            obtain ⟨found, hfound⟩ := (hviews node).holdsFields hkind name
            rw [fieldValue, hfound]
            cases found with
            | none => exact ⟨none, rfl⟩
            | some child =>
                obtain ⟨v, hv⟩ := ih _ (field_lt hfound) child rfl
                exact ⟨some v, by simp only [hv]; rfl⟩
          obtain ⟨fields, hfields⟩ := exists_eachField fun name _ => hread name
          exact ⟨_, by rw [toValue_of_object hkind, hfields]; rfl⟩

end Backend

open Backend (ViewsAgree)

namespace Tree

variable {L : Type} [Leaf L]

theorem viewsAgree (hleaf : ∀ (x : L) (expected : String) (got : Kind),
    Leaf.scalar x ≠ .error (.typeMismatch expected got)) (t : Tree L) : ViewsAgree t where
  item_of_items _ h := LawfulBackend.item_of_items h
  item_of_none h i := by
    cases t with
    | array items => cases h
    | _ => rfl
  mem_fieldNames _ := CoherentBackend.mem_fieldNames
  holdsFields := LawfulBackend.holdsFields
  items_of_array h := by
    cases t with
    | leaf x =>
        change ((Leaf.kind? x).map Kind.scalar).getD .null = .array at h
        cases hx : Leaf.kind? x <;> simp [hx] at h
    | array items => exact ⟨items, rfl⟩
    | object fields => cases h
  mismatch_iff hint := by
    cases t with
    | leaf x =>
        show (∃ expected got, scalar (.leaf x) hint = _) ↔ kind (.leaf x) = _ ∨ kind (.leaf x) = _ ∨
          kind (.leaf x) = _
        cases hx : Leaf.kind? x with
        | none => simp [scalar, kind, hx]
        | some k => simp [scalar, kind, hx, hleaf]
    | array items => exact iff_of_true ⟨_, _, rfl⟩ (.inr (.inl rfl))
    | object fields => exact iff_of_true ⟨_, _, rfl⟩ (.inr (.inr rfl))

theorem nodup_fieldNames {t : Tree L} (h : t.Distinct) : (Backend.fieldNames t).Nodup := by
  cases t with
  | object fields => exact h.1
  | _ => exact List.nodup_nil

end Tree

theorem Value.viewsAgree (v : Value) : ViewsAgree v := by
  refine Tree.viewsAgree (fun s expected got h => ?_) v
  cases h

theorem Value.exists_toValue (v : Value) : ∃ w, toValue v = .ok w := by
  refine Backend.exists_toValue Value.viewsAgree (fun t hint hkind => ?_) v
  cases t with
  | leaf s =>
      cases s with
      | null => cases hkind
      | _ => exact ⟨_, rfl⟩
  | _ => cases hkind

theorem Json.viewsAgree (j : Json) : ViewsAgree j := by
  refine Tree.viewsAgree (fun x expected got h => ?_) j
  cases x with
  | number n =>
      cases n with
      | integer n range =>
          change Scalar.toScalar _ = _ at h
          rw [Scalar.toScalar] at h
          split at h <;> cases h
      | real d finite => cases h
  | _ => cases h

namespace Xml.Node

theorem bare_or_object (own : String) (attributes : List (String × String))
    (children : List Node) (content : String) :
    (attributes = [] ∧ children = []) ∨
      Backend.kind (Node.element own attributes children content) = .object := by
  cases attributes with
  | cons _ _ => exact .inr (by show kind _ = _; simp [kind])
  | nil =>
      cases children with
      | nil => exact .inl ⟨rfl, rfl⟩
      | cons _ _ => exact .inr rfl

theorem kind_element (own : String) (attributes : List (String × String)) (children : List Node)
    (content : String) :
    Backend.kind (element own attributes children content) = .null ∨
      Backend.kind (element own attributes children content) = .scalar .string ∨
      Backend.kind (element own attributes children content) = .object := by
  rcases bare_or_object own attributes children content with ⟨rfl, rfl⟩ | hobject
  · show kind _ = _ ∨ kind _ = _ ∨ _
    by_cases h : content = "" <;> simp [kind, h]
  · exact .inr (.inr hobject)

theorem scalar_element (own : String) (attributes : List (String × String)) (children : List Node)
    (content : String) (hint : ScalarKind) :
    Backend.scalar (element own attributes children content) hint =
      if Backend.kind (element own attributes children content) = .scalar .string then
        .ok (.leaf (parseScalar content hint))
      else .error (.typeMismatch hint.name
        (Backend.kind (element own attributes children content))) := by
  show scalar _ _ = if kind _ = _ then _ else .error (.typeMismatch _ (kind _))
  rcases bare_or_object own attributes children content with ⟨rfl, rfl⟩ | hobject
  · by_cases h : content = "" <;> simp [scalar, kind, h]
  · change kind _ = _ at hobject
    rw [hobject, if_neg (by decide), scalar.eq_3, hobject]
    · intro s hs
      cases hs
    · rintro own' content' ⟨⟩
      simp only [kind, List.isEmpty_nil, Bool.not_true, Bool.or_self, Bool.false_eq_true,
        if_false] at hobject
      split at hobject <;> cases hobject

theorem viewsAgree (node : Node) : ViewsAgree node where
  item_of_items _ h := LawfulBackend.item_of_items h
  item_of_none h i := by
    change node.items? = none at h
    show node.item i = _
    rw [item, h]
    rfl
  mem_fieldNames _ := mem_fieldNames
  holdsFields := LawfulBackend.holdsFields
  items_of_array h := by
    cases node with
    | list items => exact ⟨items, rfl⟩
    | element own attributes children content =>
        rcases kind_element own attributes children content with hk | hk | hk <;>
          cases hk.symm.trans h
    | text content => cases h
  mismatch_iff hint := by
    cases node with
    | element own attributes children content =>
        rw [scalar_element]
        rcases kind_element own attributes children content with hk | hk | hk <;> simp [hk]
    | list items => exact iff_of_true ⟨_, _, rfl⟩ (.inr (.inl rfl))
    | text content => exact iff_of_false nofun (by rintro (h | h | h) <;> cases h)

theorem exists_toValue (node : Node) : ∃ v, toValue node = .ok v := by
  refine Backend.exists_toValue viewsAgree (fun x hint hkind => ?_) node
  cases x with
  | element own attributes children content =>
      rw [scalar_element]
      rcases kind_element own attributes children content with hk | hk | hk
      · cases hk.symm.trans hkind
      · exact ⟨_, if_pos hk⟩
      · cases hk.symm.trans hkind
  | list items => cases hkind
  | text content => exact ⟨_, rfl⟩

end Xml.Node

namespace Decoding.Sequential

variable {S U : Type} [Backend S]

/-- The item at the cursor is found, unless the cursor is past all items: none of those that are
counted is missing. -/
def FindsNext (d : Decoder S U) : Prop :=
  next d = match (Backend.items d.current.node).bind (·[d.current.cursor]?) with
    | some x => .ok x d
    | none => .error ⟨.outOfBounds d.current.cursor d.current.count,
        d.path ++ [.index d.current.cursor]⟩ d

theorem next_eq (d : Decoder S U) : next d =
    if d.current.count ≤ d.current.cursor then
      failAt [.index d.current.cursor] (.outOfBounds d.current.cursor d.current.count) d
    else match Backend.item d.current.node d.current.cursor with
      | .ok (some x) => .ok x d
      | .ok none => failAt [.index d.current.cursor] .valueNotFound d
      | .error fault => failAt [.index d.current.cursor] fault d := by
  show (if decide (d.current.count ≤ d.current.cursor) = true then _ else _ : Decoding S U S) d = _
  by_cases hend : d.current.count ≤ d.current.cursor
  · rw [if_pos hend, if_pos (decide_eq_true hend)]
    rfl
  · rw [if_neg hend, if_neg (by simpa using hend)]
    rw [run_get_bind]
    rcases Backend.item d.current.node d.current.cursor with fault | (_ | x) <;> rfl

theorem findsNext {d : Decoder S U} (h : ViewsAgree d.current.node) : FindsNext d := by
  rw [FindsNext, next_eq]
  cases hitems : Backend.items d.current.node with
  | none =>
      have hcount : d.current.count = 0 := by rw [Decoder.Level.count, hitems]; rfl
      rw [if_pos (by omega)]
      rfl
  | some children =>
      have hcount : d.current.count = children.length := by rw [Decoder.Level.count, hitems]; rfl
      rw [h.item_of_items children hitems, Option.bind_some]
      by_cases hend : d.current.count ≤ d.current.cursor
      · rw [if_pos hend, List.getElem?_eq_none (hcount ▸ hend)]
        rfl
      · rw [if_neg hend, List.getElem?_eq_getElem (by omega)]

end Decoding.Sequential

open Backend Decoding.Sequential in
/-- The views of a node agree on every backend, however odd the node is. Values and XML trees can
always be read whole, and a decoder finds every item that it counts. -/
theorem views_agree {U : Type} :
    (∀ v : Value, ViewsAgree v ∧ (v.Distinct → (fieldNames v).Nodup) ∧ ∃ w, toValue v = .ok w) ∧
      (∀ j : Json, ViewsAgree j ∧ (j.Distinct → (fieldNames j).Nodup)) ∧
      (∀ node : Xml.Node, ViewsAgree node ∧ (node.DistinctAttributes → (fieldNames node).Nodup) ∧
        ∃ w, toValue node = .ok w) ∧
      (∀ d : Decoder Value U, FindsNext d) ∧ (∀ d : Decoder Json U, FindsNext d) ∧
      ∀ d : Decoder Xml.Node U, FindsNext d :=
  ⟨fun v => ⟨Value.viewsAgree v, Tree.nodup_fieldNames, Value.exists_toValue v⟩,
    fun j => ⟨Json.viewsAgree j, Tree.nodup_fieldNames⟩,
    fun node => ⟨node.viewsAgree, Xml.Node.nodup_fieldNames, node.exists_toValue⟩,
    fun d => findsNext (Value.viewsAgree d.current.node),
    fun d => findsNext (Json.viewsAgree d.current.node),
    fun d => findsNext (Xml.Node.viewsAgree d.current.node)⟩

open Backend Decoding.Sequential in
/-- An element with an attribute and a child of one name, and with children that have no name. -/
theorem views_agree_loose :
    let node : Xml.Node := .element "r" [("a", "1"), ("b", "")]
      [.text "loose", .element "a" [] [] "2", .list [.text "3"], .element "" [] [] ""] "4"
    let d : Decoder Xml.Node Unit := ⟨⟨node, true, 2⟩, [], [], .identity, ()⟩
    node.DistinctAttributes ∧ (ViewsAgree node ∧ (fieldNames node).Nodup ∧ FindsNext d) ∧
      fieldNames node = ["a", "b", ""] ∧ next d = .ok (.list [.text "3"]) d := by
  intro node d
  have hdistinct : Fields.Distinct [("a", "1"), ("b", "")] := by decide
  obtain ⟨-, -, hnode, -, -, hd⟩ := views_agree (U := Unit)
  obtain ⟨hviews, hnodup, -⟩ := hnode node
  exact ⟨hdistinct, ⟨hviews, hnodup hdistinct, hd d⟩, by decide, rfl⟩

end DataTree
