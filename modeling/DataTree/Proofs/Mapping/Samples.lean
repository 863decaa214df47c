import DataTree.Proofs.Mapping.Context
import DataTree.Proofs.Mapping.Enumerations
import DataTree.Samples.Contexts
import DataTree.Samples.Keys

namespace DataTree

namespace Samples

variable {L : Type} [Leaf L]

open LawfulFields (nil)

theorem DemoKey.storedName_injective :
    Function.Injective (ClosedKeySpace.storedName : DemoKey → String) := by
  intro a b h
  cases a <;> cases b <;> first | rfl | exact absurd h (by decide)

theorem DemoKey.require_of_store_apart {a b : DemoKey} (hne : a ≠ b) {α β : Type}
    {r : Reader (Tree L) α} {w : Writer (Tree L) α} (h : Lawful r w) {x : α} {t t' : Tree L}
    (hs : w.store [a] x t = .ok () t') {r' : Reader (Tree L) β} {y : β} :
    r'.require [b] t' = .ok y ↔ r'.require [b] t = .ok y := by
  have hd : (KeySpace.path [a]).Diverge (KeySpace.path [b]) :=
    Path.diverge_of_ne fun he => hne (DemoKey.storedName_injective (Key.name.inj he))
  exact h.require_of_store_apart hs hd

variable [LawfulLeaf L]

theorem lawful_nest : Lawful (Mappable.reader : Reader (Tree L) Nest) Mappable.writer := by
  have h := (nil (L := L)).field (.prim (.int .int64)) "int" List.not_mem_nil
  refine .record (h.of (f := fun x => (x.int, ())) (g := fun x => ⟨x.1⟩) (fun _ => rfl)
    (fun t => ?_) fun x => ?_)
  · simp only [Mappable.read, readInt, map_bind, map_pure]
    rfl
  · exact bind_pure_unit.symm

theorem lawful_nests : Lawful (Mappable.reader : Reader (Tree L) Nests) Mappable.writer := by
  have h := (nil (L := L)).field lawful_nest.list "nests" List.not_mem_nil
  refine .record (h.of (f := fun x => (x.nests, ())) (g := fun x => ⟨x.1⟩) (fun _ => rfl)
    (fun t => ?_) fun x => ?_)
  · simp only [Mappable.read, map_bind, map_pure]
    rfl
  · exact bind_pure_unit.symm

theorem lawful_primitives :
    Lawful (Mappable.reader : Reader (Tree L) Primitives) Mappable.writer := by
  have hbool := (nil (L := L)).field (.prim .bool) "bool" List.not_mem_nil
  have hdouble := hbool.field (.prim .double) "double" (by decide)
  have hstring := hdouble.field (.prim .string) "string" (by decide)
  have h := hstring.field (.prim (.int .int64)) "int" (by decide)
  refine .record (h.of (f := fun x => (x.int, x.string, x.double, x.bool, ()))
    (g := fun (int, string, double, bool, _) => ⟨int, string, double, bool⟩) (fun _ => rfl)
    (fun t => ?_) fun x => ?_)
  · simp only [Mappable.read, readInt, map_bind, map_pure, bind_assoc, pure_bind]
    rfl
  · simp only [Mappable.store, writeInt, bind_pure_unit]

theorem lawful_hiddenFar :
    Lawful (Mappable.reader : Reader (Tree L) HiddenFar) Mappable.writer := by
  have h := (nil (L := L)).cons (.prim .string) HiddenFar.path (List.cons_ne_nil _ _)
    (List.forall_mem_nil _)
  refine .record (h.of (f := fun x => (x.hiddenFar, ())) (g := fun x => ⟨x.1⟩) (fun _ => rfl)
    (fun t => ?_) fun x => ?_)
  · simp only [Mappable.read, map_bind, map_pure]
    rfl
  · exact bind_pure_unit.symm

theorem lawful_fruitNest (fruit : Fruit) :
    Lawful ((ContextMappable.reader : ContextReader (Tree L) Fruit FruitNest).under fruit)
      (ContextMappable.writer.under fruit) := by
  have h := (nil (L := L)).field (.prim (.int .int64)) fruit.key List.not_mem_nil
  refine .record (h.of (f := fun x => (x.int, ())) (g := fun x => ⟨x.1⟩) (fun _ => rfl)
    (fun t => ?_) fun x => ?_)
  · simp only [map_bind, map_pure]
    rfl
  · funext tree
    exact (congrFun (Contextual.within_onTree _) tree).trans (congrFun bind_pure_unit.symm tree)

theorem lawful_mixedFruit :
    Lawful (Mappable.reader : Reader (Tree L) MixedFruit) Mappable.writer := by
  have hnests := (nil (L := L)).field (lawful_fruitNest .orange).list "nests" List.not_mem_nil
  have h := hnests.field (lawful_fruitNest .peach) "nest" (by decide)
  refine .record (h.of (f := fun x => (x.nest, x.nests, ())) (g := fun x => ⟨x.1, x.2.1⟩)
    (fun _ => rfl) (fun t => ?_) fun x => ?_)
  · simp only [Mappable.read, map_bind, map_pure, bind_assoc, pure_bind]
    rfl
  · simp only [Mappable.store, bind_pure_unit]
    rfl

theorem lawful_basket (fruit : Fruit) :
    Lawful ((ContextMappable.reader : ContextReader (Tree L) Fruit Basket).under fruit)
      (ContextMappable.writer.under fruit) := by
  have hnest := lawful_fruitNest (L := L) fruit
  have hspare : LawfulFields (L := L) (["spare"].map fun name => [.name name]) _ _ :=
    nil.consBy (hnest.option Tree.isNull_null) ["spare"] (List.cons_ne_nil _ _)
      Reader.optional_eq_require_option (List.forall_mem_nil _)
  have hnests := hspare.field hnest.list "nests" (by decide)
  have h := hnests.field hnest "nest" (by decide)
  refine .record (h.of (f := fun x => (x.nest, x.nests, x.spare, ()))
    (g := fun (nest, nests, spare, _) => ⟨nest, nests, spare⟩) (fun _ => rfl)
    (fun t => ?_) fun x => ?_)
  · simp only [map_bind, map_pure, bind_assoc, pure_bind]
    rfl
  · simp only [bind_pure_unit]
    refine (ContextWriter.within_storeIn_bind _).trans ?_
    rw [ContextWriter.within_storeIn_bind, ContextWriter.within_storeIn]
    rfl

theorem Fruit.key_injective : Function.Injective Fruit.key := by
  intro a b h
  cases a <;> cases b <;> first | rfl | exact absurd h (by decide)

theorem fruitNest_apart {fruit other : Fruit} (hne : fruit ≠ other) {x y : FruitNest}
    {t : Tree L} {mapper : Contextual (Tree L) Fruit}
    (hs : ContextMappable.store x ⟨t, fruit⟩ = .ok () mapper) :
    ContextMappable.read (C := Fruit) ⟨mapper.tree, other⟩ = .ok y ↔
      ContextMappable.read (C := Fruit) ⟨t, other⟩ = .ok y := by
  have hstore : (Writer.prim (.int .int64)).store [fruit.key] x.int t = .ok () mapper.tree := by
    change Contextual.onTree _ _ = _ at hs
    rw [Contextual.onTree] at hs
    split at hs
    next htree =>
      cases hs
      exact htree
    next => cases hs
  have hread (t : Tree L) : ContextMappable.read (C := Fruit) ⟨t, other⟩ = .ok y ↔
      readInt.require [other.key] t = .ok y.int := by
    refine bind_eq_ok.trans ⟨?_, fun h => ⟨_, h, rfl⟩⟩
    rintro ⟨int, hint, hy⟩
    cases hy
    exact hint
  have hd : (KeySpace.path [fruit.key]).Diverge (KeySpace.path [other.key]) :=
    Path.diverge_of_ne fun he => hne (Fruit.key_injective (Key.name.inj he))
  rw [hread, hread]
  exact (Lawful.prim _).require_of_store_apart hstore hd

omit [LawfulLeaf L] in
theorem require_of_choice {α : Type} {r : Reader (Tree L) α} {name main : String} {x : α}
    {t : Tree L}
    (h : (do
      return (← (Reader.prim .string).require ["main"] t,
        ← (do return (← r.require [name] t, ← .ok ()))) : Except Error (String × α × Unit)) =
      .ok (main, x, ())) :
    (Reader.prim .string).require ["main"] t = .ok main ∧ r.require [name] t = .ok x := by
  obtain ⟨_, hmain, h⟩ := bind_eq_ok.1 h
  obtain ⟨_, hrest, h⟩ := bind_eq_ok.1 h
  cases h
  obtain ⟨_, hx, hrest⟩ := bind_eq_ok.1 hrest
  cases hrest
  exact ⟨hmain, hx⟩

theorem lawful_action : Lawful (Mappable.reader : Reader (Tree L) Action) Mappable.writer := by
  have hrate := (nil (L := L)).field (.prim (.int .int64)) "rate" List.not_mem_nil
  have hinterval := (nil (L := L)).field (.prim .double) "time-interval" List.not_mem_nil
  have hfire := hrate.field (.prim .string) "main" (by decide)
  have haim := hinterval.field (.prim .string) "main" (by decide)
  have hfields : LawfulFields (L := L) [[.name "main"], [.name "rate"], [.name "time-interval"]]
      (Mappable.read : _ → Except Error Action) Mappable.store := by
    refine .alternatives fun x => ?_
    cases x with
    | fire rate =>
        refine ⟨_, ("fire", rate, ()), _, _, _, hfire, by simp, fun t t' hs => ?_,
          fun t hread => ?_⟩
        · change (do
            if rate.val < 0 then throw (Error.custom "negative rate")
            (Writer.prim .string).store ["main"] "fire"
            writeInt.store ["rate"] rate : EStateM Error (Tree L) Unit) t = .ok () t' at hs
          split at hs
          next => cases hs
          next =>
            simp only [bind_pure_unit]
            exact hs
        · obtain ⟨hmain, hrate⟩ := require_of_choice hread
          simp only [Mappable.read, hmain, readInt, hrate]
          rfl
    | takeAim interval =>
        refine ⟨_, ("take-aim", interval, ()), _, _, _, haim, by simp, fun t t' hs => ?_,
          fun t hread => ?_⟩
        · simp only [bind_pure_unit]
          exact hs
        · obtain ⟨hmain, hinterval⟩ := require_of_choice hread
          simp only [Mappable.read, hmain, hinterval]
          rfl
  exact .record hfields

theorem basket_read_back {κ : Type} [KeySpace κ] {fruit : Fruit} {keys : List κ} {x : Basket}
    {t t' : Tree L} (hs : ContextMappable.writer.store keys fruit x t = .ok () t') :
    ContextMappable.reader.require keys fruit t' = .ok x :=
  (lawful_basket fruit).require_of_store hs

end Samples

end DataTree
