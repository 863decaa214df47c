import DataTree.Mapping.Record
import DataTree.Proofs.Primitive
import DataTree.Proofs.Tree.PathLaw

namespace DataTree

open DataTree.Tree (settled)

variable {α β κ : Type} [KeySpace κ]

section Stores

variable {S : Type} [Backend S]

theorem Mapper.write_eq_ok {made : Except Error S} {keys : List κ} {t t' : S} :
    Mapper.write keys made t = .ok () t' ↔
      ∃ node, made = .ok node ∧ Backend.setAt node true (KeySpace.path keys) t = .ok () t' := by
  cases made with
  | error e => simp [Mapper.write]
  | ok node =>
      simp only [Mapper.write, Except.ok.injEq, exists_eq_left']
      split <;> simp [*]

theorem Writer.store_eq_ok {w : Writer S α} {keys : List κ} {x : α} {t t' : S} :
    w.store keys x t = .ok () t' ↔ ∃ node, w.write x = .ok node ∧
      Backend.setAt node true (KeySpace.path keys) t = .ok () t' := Mapper.write_eq_ok

theorem Mapper.optional_of_some {absent : S → Bool} {keys : List κ} {t v : S}
    (h : Backend.get t (KeySpace.path keys) = .ok (some v)) :
    Mapper.optional absent keys t = .ok (if absent v then none else some v) := by
  rw [Mapper.optional, h]
  cases hv : absent v <;> simp [hv, bind, Except.bind, pure, Except.pure]

theorem Mapper.optional_of_none {absent : S → Bool} {keys : List κ} {t : S}
    (h : Backend.get t (KeySpace.path keys) = .ok none) :
    Mapper.optional absent keys t = .ok none := by
  rw [Mapper.optional, h]
  rfl

theorem Mapper.optional_of_error {absent : S → Bool} {keys : List κ} {t : S} {e : Error}
    (h : Backend.get t (KeySpace.path keys) = .error e) :
    Mapper.optional absent keys t = .error e := by
  rw [Mapper.optional, h]
  rfl

theorem Mapper.optional_eq_some {absent : S → Bool} {keys : List κ} {t v : S} :
    Mapper.optional absent keys t = .ok (some v) ↔
      Backend.get t (KeySpace.path keys) = .ok (some v) ∧ absent v = false := by
  cases hget : Backend.get t (KeySpace.path keys) with
  | error e => simp [Mapper.optional_of_error hget]
  | ok found =>
      cases found with
      | none => simp [Mapper.optional_of_none hget]
      | some w =>
          rw [Mapper.optional_of_some hget]
          by_cases hw : absent w = true
          · have hv : w = v → absent v = true := fun he => he ▸ hw
            simpa [hw] using hv
          · have hv : w = v → absent v = false := fun he => Bool.eq_false_iff.2 (he ▸ hw)
            simpa [hw] using hv

theorem Reader.require_eq_ok {r : Reader S α} {keys : List κ} {x : α} {t : S} :
    r.require keys t = .ok x ↔ ∃ v, Backend.get t (KeySpace.path keys) = .ok (some v) ∧
      r.absent v = false ∧ r.read v = .ok x := by
  simp only [← and_assoc, ← Mapper.optional_eq_some]
  rw [Reader.require, Mapper.required]
  rcases Mapper.optional r.absent keys t with e | _ | v
  · exact iff_of_false nofun nofun
  · exact iff_of_false nofun nofun
  · exact mapError_eq_ok.trans (by simp)

theorem Reader.require_of_some {r : Reader S α} {keys : List κ} {t v : S}
    (h : Backend.get t (KeySpace.path keys) = .ok (some v)) :
    r.require keys t = if r.absent v then .error ⟨.valueNotFound, KeySpace.path keys⟩
      else (r.read v).mapError (Error.within (KeySpace.path keys)) := by
  rw [Reader.require, Mapper.required, Mapper.optional_of_some h]
  cases r.absent v <;> rfl

theorem Reader.require_of_none {r : Reader S α} {keys : List κ} {t : S}
    (h : Backend.get t (KeySpace.path keys) = .ok none) :
    r.require keys t = .error ⟨.valueNotFound, KeySpace.path keys⟩ := by
  rw [Reader.require, Mapper.required, Mapper.optional_of_none h]
  rfl

theorem Reader.optional_of_some {r : Reader S α} {keys : List κ} {t v : S}
    (h : Backend.get t (KeySpace.path keys) = .ok (some v)) :
    r.optional keys t = if r.absent v then .ok none
      else ((r.read v).mapError (Error.within (KeySpace.path keys))).map some := by
  rw [Reader.optional, Mapper.optional_of_some h]
  cases r.absent v <;> rfl

theorem Reader.require_of_get {r : Reader S α} {keys : List κ} {x : α} {t v : S}
    (h : Backend.get t (KeySpace.path keys) = .ok (some v)) (hv : r.absent v = false)
    (hr : r.read v = .ok x) : r.require keys t = .ok x := by
  rw [Reader.require_of_some h, hv, hr]
  rfl

theorem Reader.optional_eq_require_option {r : Reader S α} {keys : List κ} {t v : S}
    (h : Backend.get t (KeySpace.path keys) = .ok (some v)) :
    r.optional keys t = r.option.require keys t := by
  rw [optional_of_some h, require_of_some h]
  simp only [option]
  cases r.absent v with
  | true => rfl
  | false => cases r.read v <;> rfl

theorem Writer.record_eq_ok {fields : α → EStateM Error S Unit} {x : α} {t : S} :
    (Writer.record fields).write x = .ok t ↔ fields x Backend.object = .ok () t := by
  simp only [Writer.record, Writer.destination]
  split <;> simp [*]

end Stores

variable {L : Type} [Leaf L]

/-- What the writer makes of a value is a tree that the reader takes for that value, and never for
nothing, wherever it was stored. -/
structure Lawful (r : Reader (Tree L) α) (w : Writer (Tree L) α) : Prop where
  distinct : ∀ {x t}, w.write x = .ok t → t.Distinct
  present : ∀ {x t}, w.write x = .ok t → ∀ old, r.absent (settled true t old) = false
  read : ∀ {x t}, w.write x = .ok t → ∀ old, r.read (settled true t old) = .ok x

namespace Lawful

variable {r : Reader (Tree L) α} {w : Writer (Tree L) α}

theorem written (h : Lawful r w) {keys : List κ} {x : α} {t t' : Tree L}
    (hs : w.store keys x t = .ok () t') :
    ∃ node, w.write x = .ok node ∧ Tree.Written node true (KeySpace.path keys) t t' := by
  obtain ⟨node, hw, hset⟩ := Writer.store_eq_ok.1 hs
  exact ⟨node, hw, Tree.written_of_setAt (h.distinct hw) hset⟩

theorem written_first (h : Lawful r w) {keys : List κ} {store : β → EStateM Error (Tree L) Unit}
    {x : α × β} {t t' : Tree L}
    (hs : (do w.store keys x.1; store x.2 : EStateM Error (Tree L) Unit) t = .ok () t') :
    ∃ node u, w.write x.1 = .ok node ∧ Tree.Written node true (KeySpace.path keys) t u ∧
      store x.2 u = .ok () t' := by
  obtain ⟨_, u, hu, hrest⟩ := run_bind_eq_ok.1 hs
  obtain ⟨node, hw, hwritten⟩ := h.written hu
  exact ⟨node, u, hw, hwritten, hrest⟩

theorem require_of_store (h : Lawful r w) {keys : List κ} {x : α} {t t' : Tree L}
    (hs : w.store keys x t = .ok () t') : r.require keys t' = .ok x := by
  obtain ⟨node, hw, hwritten⟩ := h.written hs
  obtain ⟨old, -, hget⟩ := hwritten.get_self
  exact Reader.require_of_get hget (h.present hw old) (h.read hw old)

theorem require_of_store_apart (h : Lawful r w) {keys other : List κ} {x : α} {t t' : Tree L}
    (hs : w.store keys x t = .ok () t') (hd : (KeySpace.path keys).Diverge (KeySpace.path other))
    {r' : Reader (Tree L) β} {y : β} :
    r'.require other t' = .ok y ↔ r'.require other t = .ok y := by
  obtain ⟨node, -, hwritten⟩ := h.written hs
  simp only [Reader.require_eq_ok, hwritten.get_diverge hd]

theorem prim [LawfulLeaf L] (p : Primitive) :
    Lawful (Reader.prim p : Reader (Tree L) _) (.prim p) where
  distinct hw := by
    obtain ⟨-, l, rfl, -⟩ := readLeaf_writeLeaf (mapError_eq_ok.1 hw)
    trivial
  present hw old := by
    obtain ⟨-, l, rfl, hl⟩ := readLeaf_writeLeaf (mapError_eq_ok.1 hw)
    rw [Reader.prim_absent, Tree.settled_leaf, Tree.isNull_leaf, ← Option.not_isSome, hl]
    rfl
  read hw old := by
    obtain ⟨hread, l, rfl, -⟩ := readLeaf_writeLeaf (mapError_eq_ok.1 hw)
    rw [Tree.settled_leaf]
    exact mapError_eq_ok.2 hread

theorem list (h : Lawful r w) : Lawful r.list w.list where
  distinct hw := by
    obtain ⟨ys, hys, rfl⟩ := map_eq_ok.1 hw
    refine Tree.hereditary_distinct.array fun y hy => ?_
    obtain ⟨x, -, hx⟩ := exists_of_mem_eachItem hys hy
    exact h.distinct hx
  present hw old := by
    obtain ⟨ys, hys, rfl⟩ := map_eq_ok.1 hw
    show Reader.listAbsent (settled true (Tree.array ys) old) = false
    rw [Tree.settled_array]
    rfl
  read hw old := by
    obtain ⟨ys, hys, rfl⟩ := map_eq_ok.1 hw
    show r.readItems (settled true (Tree.array ys) old) = _
    rw [Tree.settled_array]
    refine eachItem_inverse (fun {x y} hx => ?_) hys 0
    have hpresent : r.absent y = false := h.present hx none
    simp only [hpresent, Bool.false_eq_true, if_false]
    exact h.read hx none

theorem option (h : Lawful r w) (hnull : r.absent Backend.null = true) :
    Lawful r.option w.option where
  distinct {x t} hw := by
    cases x with
    | none => cases hw; trivial
    | some x => exact h.distinct hw
  present _ _ := rfl
  read {x t} hw old := by
    cases x with
    | none =>
        cases hw
        have hnone : settled true (Backend.null : Tree L) old = Backend.null :=
          Tree.settled_leaf true Leaf.null old
        simp [hnone, hnull]
    | some x =>
        have hp := h.present hw old
        have hr := h.read hw old
        simp [hp, hr]

end Lawful

/-- Reading takes back storing field by field: the stores keep names distinct and the destination an
object, are not seen beside their paths, and leave every field to be read. -/
structure LawfulFields (paths : List Path) (read : Tree L → Except Error α)
    (store : α → EStateM Error (Tree L) Unit) : Prop where
  distinct : ∀ {x t t'}, store x t = .ok () t' → t.Distinct → t'.Distinct
  object : ∀ {x fields t'}, store x (.object fields) = .ok () t' → ∃ fields', t' = .object fields'
  beside : ∀ {x t t'}, store x t = .ok () t' → ∀ {other}, (∀ p ∈ paths, p.Diverge other) →
    ∀ v, Backend.get t' other = .ok (some v) ↔ Backend.get t other = .ok (some v)
  read : ∀ {x t t'}, store x t = .ok () t' → t.Distinct → ∀ old,
    read (settled true t' old) = .ok x

namespace LawfulFields

theorem nil : LawfulFields [] (fun _ : Tree L => .ok ()) (fun _ => pure ()) where
  distinct hs ht := by
    cases hs
    exact ht
  object hs := by
    cases hs
    exact ⟨_, rfl⟩
  beside hs _ _ _ := by
    cases hs
    exact Iff.rfl
  read _ _ _ := rfl

theorem consBy {r : Reader (Tree L) α} {w : Writer (Tree L) α} (h : Lawful r w) (keys : List κ)
    (hkeys : KeySpace.path keys ≠ []) {paths : List Path} {take : Tree L → Except Error α}
    (htake : ∀ {t v}, Backend.get t (KeySpace.path keys) = .ok (some v) →
      take t = r.require keys t)
    {read : Tree L → Except Error β} {store : β → EStateM Error (Tree L) Unit}
    (hd : ∀ p ∈ paths, (KeySpace.path keys).Diverge p) (hf : LawfulFields paths read store) :
    LawfulFields (KeySpace.path keys :: paths)
      (fun source => do return (← take source, ← read source))
      (fun x => do w.store keys x.1; store x.2) where
  distinct hs ht := by
    obtain ⟨node, u, hw, hwritten, hs⟩ := h.written_first hs
    exact hf.distinct hs (hwritten.hereditary Tree.hereditary_distinct (h.distinct hw) ht)
  object hs := by
    obtain ⟨node, u, hw, hwritten, hs⟩ := h.written_first hs
    obtain ⟨fields, rfl⟩ := hwritten.object_root hkeys
    exact hf.object hs
  beside hs other ho v := by
    obtain ⟨node, u, hw, hwritten, hs⟩ := h.written_first hs
    rw [hf.beside hs (fun p hp => ho p (List.mem_cons_of_mem _ hp)) v]
    exact hwritten.get_diverge (ho _ List.mem_cons_self) v
  read hs ht old := by
    obtain ⟨node, u, hw, hwritten, hs⟩ := h.written_first hs
    have hdistinct := hwritten.hereditary Tree.hereditary_distinct (h.distinct hw) ht
    -- the later fields leave this one where it was stored
    obtain ⟨before, -, hget⟩ := hwritten.get_self
    rw [← hf.beside hs (fun p hp => (hd p hp).symm)] at hget
    have hfound := Tree.get_settled (hf.distinct hs hdistinct) hkeys hget old
    have hfirst := Reader.require_of_get hfound (h.present hw before) (h.read hw before)
    simp only [htake hfound, hfirst, hf.read hs hdistinct old]
    rfl

theorem cons {r : Reader (Tree L) α} {w : Writer (Tree L) α} (h : Lawful r w) (keys : List κ)
    (hkeys : KeySpace.path keys ≠ []) {paths : List Path} {read : Tree L → Except Error β}
    {store : β → EStateM Error (Tree L) Unit}
    (hd : ∀ p ∈ paths, (KeySpace.path keys).Diverge p) (hf : LawfulFields paths read store) :
    LawfulFields (KeySpace.path keys :: paths)
      (fun source => do return (← r.require keys source, ← read source))
      (fun x => do w.store keys x.1; store x.2) := consBy h keys hkeys (fun _ => rfl) hd hf

omit [KeySpace κ] in
theorem field {r : Reader (Tree L) α} {w : Writer (Tree L) α} (h : Lawful r w) (name : String)
    {names : List String} (hname : name ∉ names) {read : Tree L → Except Error β}
    {store : β → EStateM Error (Tree L) Unit}
    (hf : LawfulFields (names.map fun n => [.name n]) read store) :
    LawfulFields ((name :: names).map fun n => [.name n])
      (fun source => do return (← r.require [name] source, ← read source))
      (fun x => do w.store [name] x.1; store x.2) := by
  refine cons h [name] (List.cons_ne_nil _ _) (fun p hp => ?_) hf
  obtain ⟨other, hother, rfl⟩ := List.mem_map.1 hp
  refine Path.diverge_of_ne fun he => hname ?_
  cases he
  exact hother

theorem of {read : Tree L → Except Error β} {store : β → EStateM Error (Tree L) Unit}
    {paths : List Path} (h : LawfulFields paths read store) {f : α → β} {g : β → α}
    (hg : ∀ x, g (f x) = x) {read' : Tree L → Except Error α}
    {store' : α → EStateM Error (Tree L) Unit} (hread : ∀ t, read' t = g <$> read t)
    (hstore : ∀ x, store' x = store (f x)) : LawfulFields paths read' store' := by
  obtain rfl : store' = fun x => store (f x) := funext hstore
  refine ⟨h.distinct, h.object, h.beside, fun hs ht old => ?_⟩
  rw [hread, h.read hs ht old]
  exact congrArg Except.ok (hg _)

theorem alternatives {paths : List Path} {read : Tree L → Except Error α}
    {store : α → EStateM Error (Tree L) Unit}
    (h : ∀ x, ∃ (β : Type) (y : β) (paths' : List Path) (read' : Tree L → Except Error β)
      (store' : β → EStateM Error (Tree L) Unit), LawfulFields paths' read' store' ∧
        paths' ⊆ paths ∧ (∀ t t', store x t = .ok () t' → store' y t = .ok () t') ∧
        ∀ t, read' t = .ok y → read t = .ok x) : LawfulFields paths read store where
  distinct {x t t'} hs ht := by
    obtain ⟨_, y, _, _, _, hf, -, hstore, -⟩ := h x
    exact hf.distinct (hstore t t' hs) ht
  object {x fields t'} hs := by
    obtain ⟨_, y, _, _, _, hf, -, hstore, -⟩ := h x
    exact hf.object (hstore (.object fields) t' hs)
  beside {x t t'} hs other ho := by
    obtain ⟨_, y, _, _, _, hf, hpaths, hstore, -⟩ := h x
    exact hf.beside (hstore t t' hs) fun p hp => ho p (hpaths hp)
  read {x t t'} hs ht old := by
    obtain ⟨_, y, _, _, _, hf, -, hstore, hread⟩ := h x
    exact hread _ (hf.read (hstore t t' hs) ht old)

end LawfulFields

theorem Lawful.record {paths : List Path} {read : Tree L → Except Error α}
    {store : α → EStateM Error (Tree L) Unit} (h : LawfulFields paths read store) :
    Lawful (.record read) (.record store) := by
  constructor
  · intro x t hw
    exact h.distinct (Writer.record_eq_ok.1 hw) Tree.hereditary_distinct.object
  · intro x t hw old
    obtain ⟨fields, rfl⟩ := h.object (Writer.record_eq_ok.1 hw)
    rw [Reader.record_absent]
    rcases Tree.settled_object fields old with ho | ⟨fields', ho⟩ <;> rw [ho] <;> rfl
  · intro x t hw old
    exact h.read (Writer.record_eq_ok.1 hw) Tree.hereditary_distinct.object old

end DataTree
