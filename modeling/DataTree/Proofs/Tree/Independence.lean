import DataTree.Proofs.Outcome
import DataTree.Proofs.Tree.Effect
import Mathlib.Data.List.Pairwise

namespace DataTree

structure Write (S : Type) where
  path : Path
  value : S
  merge : Bool

def Backend.performAll {S : Type} [Backend S] : List (Write S) → EStateM Error S Unit
  | [] => pure ()
  | w :: ws => do
    setAt w.value w.merge w.path
    performAll ws

section Order

variable {σ ω : Type} {f : σ → ω → σ} {ws : List ω}

/-- A step that commutes with all others and adds nothing when repeated is not missed in front of a
list that has it. -/
theorem foldl_absorb {w : ω} (hself : ∀ s, f (f s w) w = f s w)
    (hcomm : ∀ v ∈ ws, ∀ s, f (f s w) v = f (f s v) w) (hw : w ∈ ws) (s : σ) :
    ws.foldl f (f s w) = ws.foldl f s := by
  induction ws generalizing s with
  | nil => cases hw
  | cons v ws ih =>
      rw [List.foldl_cons, List.foldl_cons]
      rcases List.mem_cons.1 hw with rfl | hw
      · rw [hself]
      · rw [hcomm v List.mem_cons_self, ih (fun u hu => hcomm u (List.mem_cons_of_mem _ hu)) hw]

theorem foldl_append_absorb (hself : ∀ w ∈ ws, ∀ s, f (f s w) w = f s w)
    (hcomm : ∀ v ∈ ws, ∀ w ∈ ws, ∀ s, f (f s v) w = f (f s w) v) {vs : List ω}
    (hvs : ∀ v ∈ vs, v ∈ ws) (s : σ) : (vs ++ ws).foldl f s = ws.foldl f s := by
  induction vs generalizing s with
  | nil => rfl
  | cons v vs ih =>
      have hv : v ∈ ws := hvs v List.mem_cons_self
      rw [List.cons_append, List.foldl_cons, ih fun u hu => hvs u (List.mem_cons_of_mem _ hu),
        foldl_absorb (hself v hv) (hcomm v hv) hv]

theorem foldl_eq_of_mem_iff (hself : ∀ w ∈ ws, ∀ s, f (f s w) w = f s w)
    (hcomm : ∀ v ∈ ws, ∀ w ∈ ws, ∀ s, f (f s v) w = f (f s w) v) {vs : List ω}
    (hvs : ∀ w, w ∈ vs ↔ w ∈ ws) (s : σ) : vs.foldl f s = ws.foldl f s := by
  have hself' : ∀ v ∈ vs, ∀ s, f (f s v) v = f s v := fun v hv => hself v ((hvs v).1 hv)
  have hcomm' : ∀ u ∈ vs, ∀ v ∈ vs, ∀ s, f (f s u) v = f (f s v) u := fun u hu v hv =>
    hcomm u ((hvs u).1 hu) v ((hvs v).1 hv)
  have hall : ∀ u ∈ ws ++ vs, ∀ v ∈ ws ++ vs, ∀ s, f (f s u) v = f (f s v) u := by
    intro u hu v hv
    simp only [List.mem_append, hvs, or_self] at hu hv
    exact hcomm u hu v hv
  calc vs.foldl f s
    _ = (ws ++ vs).foldl f s :=
      (foldl_append_absorb hself' hcomm' (fun w hw => (hvs w).2 hw) s).symm
    _ = (vs ++ ws).foldl f s := List.perm_append_comm.foldl_eq' hall s
    _ = ws.foldl f s := foldl_append_absorb hself hcomm (fun w hw => (hvs w).1 hw) s

end Order

namespace Tree

open Backend (setAt performAll)

variable {L : Type} [Leaf L] {t t' : Tree L} {ws vs : List (Write (Tree L))}

def Shapes.perform (s : Shapes L) (w : Write (Tree L)) : Shapes L := s.write w.value w.merge w.path

/-- Each two writes of a list are the same, or neither leads through the end of the other. -/
def Independent (ws : List (Write (Tree L))) : Prop :=
  ∀ v ∈ ws, ∀ w ∈ ws, v = w ∨ v.path.Diverge w.path

omit [Leaf L] in
theorem independent_of_pairwise (hd : ws.Pairwise fun v w => v.path.Diverge w.path) :
    Independent ws := by
  have hsymm : Std.Symm fun v w : Write (Tree L) => v.path.Diverge w.path := ⟨fun _ _ h => h.symm⟩
  intro v hv w hw
  by_cases he : v = w
  · exact .inl he
  · exact .inr (hd.forall hv hw he)

theorem performAll_cons_eq_ok {w : Write (Tree L)} :
    performAll (w :: ws) t = .ok () t' ↔
      ∃ next, setAt w.value w.merge w.path t = .ok () next ∧ performAll ws next = .ok () t' := by
  rw [performAll, run_bind_eq_ok]
  exact ⟨fun ⟨_, next, h⟩ => ⟨next, h⟩, fun ⟨next, h⟩ => ⟨(), next, h⟩⟩

theorem performAll_spec (hv : ∀ w ∈ ws, w.value.Distinct) (ht : t.Distinct)
    (h : performAll ws t = .ok () t') :
    t'.Distinct ∧ shapeAt t' = ws.foldl Shapes.perform (shapeAt t) := by
  induction ws generalizing t with
  | nil =>
      cases h
      exact ⟨ht, rfl⟩
  | cons w ws ih =>
      obtain ⟨next, hnext, hrest⟩ := performAll_cons_eq_ok.1 h
      have hw := hv w List.mem_cons_self
      have written := written_of_setAt hw hnext
      have hshape : shapeAt next = (shapeAt t).perform w := written.shapeAt_eq hw
      rw [List.foldl_cons, ← hshape]
      exact ih (fun v hm => hv v (List.mem_cons_of_mem _ hm))
        (written.hereditary hereditary_distinct hw ht) hrest

omit [Leaf L] in
theorem Shapes.admits_perform {s : Shapes L} {v w : Write (Tree L)}
    (h : v = w ∨ v.path.Diverge w.path) (hw : Admits w.path s) : Admits w.path (s.perform v) := by
  rcases h with rfl | h
  · exact admits_write_self hw
  · exact (admits_write_of_diverge h).2 hw

theorem exists_performAll_iff (hv : ∀ w ∈ ws, w.value.Distinct) (hi : Independent ws) :
    (∃ t', performAll ws t = .ok () t') ↔ ∀ w ∈ ws, Shapes.Admits w.path (shapeAt t) := by
  induction ws generalizing t with
  | nil => exact iff_of_true ⟨t, rfl⟩ nofun
  | cons w ws ih =>
      have hw := hv w List.mem_cons_self
      have hrest := fun next => ih (t := next) (fun v hm => hv v (List.mem_cons_of_mem _ hm))
        fun u hu v hm => hi u (List.mem_cons_of_mem _ hu) v (List.mem_cons_of_mem _ hm)
      have hpair (v) (hm : v ∈ ws) := hi w List.mem_cons_self v (List.mem_cons_of_mem _ hm)
      have hfirst : (∃ next, setAt w.value w.merge w.path t = .ok () next) ↔
          Shapes.Admits w.path (shapeAt t) := exists_setAt_iff hw
      rw [List.forall_mem_cons, ← hfirst]
      constructor
      · rintro ⟨t', h⟩
        obtain ⟨next, hnext, hall⟩ := performAll_cons_eq_ok.1 h
        have hadmits := (hrest next).1 ⟨t', hall⟩
        have hshape : shapeAt next = (shapeAt t).perform w :=
          (written_of_setAt hw hnext).shapeAt_eq hw
        refine ⟨⟨next, hnext⟩, fun v hm => ?_⟩
        rcases hpair v hm with rfl | hd
        · exact (exists_setAt_iff hw).1 ⟨next, hnext⟩
        · have hafter := hadmits v hm
          rw [hshape] at hafter
          exact (Shapes.admits_write_of_diverge hd).1 hafter
      · rintro ⟨⟨next, hnext⟩, hadmits⟩
        have hshape : shapeAt next = (shapeAt t).perform w :=
          (written_of_setAt hw hnext).shapeAt_eq hw
        obtain ⟨t', h⟩ := (hrest next).2 fun v hm => by
          rw [hshape]
          exact Shapes.admits_perform (hpair v hm) (hadmits v hm)
        exact ⟨t', performAll_cons_eq_ok.2 ⟨next, hnext, h⟩⟩

/-- Writes at diverging paths that succeed in one order succeed in every order, and with any of them
repeated, and the trees they leave differ in the order of fields only. -/
theorem performAll_any_order (ht : t.Distinct) (hv : ∀ w ∈ ws, w.value.Distinct)
    (hd : ws.Pairwise fun v w => v.path.Diverge w.path) (hm : ∀ w, w ∈ vs ↔ w ∈ ws)
    (h : performAll ws t = .ok () t') :
    ∃ t'', performAll vs t = .ok () t'' ∧ t'.Reordered t'' := by
  have hi := independent_of_pairwise hd
  have hi' : Independent vs := fun v hv w hw => hi v ((hm v).1 hv) w ((hm w).1 hw)
  have hv' : ∀ w ∈ vs, w.value.Distinct := fun w hw => hv w ((hm w).1 hw)
  have hadmits := (exists_performAll_iff hv hi).1 ⟨t', h⟩
  obtain ⟨t'', h'⟩ := (exists_performAll_iff hv' hi').2 fun w hw => hadmits w ((hm w).1 hw)
  obtain ⟨hdistinct, hshape⟩ := performAll_spec hv ht h
  obtain ⟨hdistinct', hshape'⟩ := performAll_spec hv' ht h'
  refine ⟨t'', h', reordered_of_shapeAt_eq hdistinct hdistinct' ?_⟩
  rw [hshape, hshape']
  symm
  apply foldl_eq_of_mem_iff
  · exact fun w _ s => Shapes.write_write_self
  · intro v hv w hw s
    rcases hi v hv w hw with rfl | hd
    · rfl
    · exact Shapes.write_comm hd
  · exact hm

theorem performAll_any_order_reversed :
    let t : Value := .object [("a", .object [("b", .object [("q", Value.int 0)])]),
      ("l", .array [Value.int 0, Value.int 0])]
    let merged : Write Value := ⟨[.name "a", .name "b"], .object [("p", Value.int 1)], true⟩
    let made : Write Value := ⟨[.name "a", .name "c", .name "d"], Value.int 2, false⟩
    let replaced : Write Value := ⟨[.name "l", .index 1], Value.int 3, true⟩
    ∃ t' t'', performAll [merged, made, replaced] t = .ok () t' ∧
      performAll [made, replaced, made, merged] t = .ok () t'' ∧ t'.Reordered t'' := by
  intro t merged made replaced
  have ht : t.Distinct := by
    simp [t, Distinct, DistinctFields, DistinctItems, Fields.Distinct, Fields.names]
  have hv : ∀ w ∈ [merged, made, replaced], w.value.Distinct := by
    simp [merged, made, replaced, Distinct, DistinctFields, Fields.Distinct, Fields.names]
  have hd : [merged, made, replaced].Pairwise fun v w => v.path.Diverge w.path := by
    simp [merged, made, replaced, Path.Diverge]
  have hm (w) : w ∈ [made, replaced, made, merged] ↔ w ∈ [merged, made, replaced] := by
    simp only [List.mem_cons, List.not_mem_nil]
    tauto
  have hfirst : ∃ t', performAll [merged, made, replaced] t = .ok () t' := ⟨_, rfl⟩
  obtain ⟨t', h⟩ := hfirst
  obtain ⟨t'', h', hr⟩ := performAll_any_order ht hv hd hm h
  exact ⟨t', t'', h, h', hr⟩

end Tree

end DataTree
