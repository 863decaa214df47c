import DataTree.Proofs.Tree.PathLaw
import DataTree.Proofs.Tree.Through

namespace DataTree.Tree

variable {L : Type}

theorem stored_false (x t : Tree L) : stored false x t = x := by
  cases t <;> rfl

theorem stored_self {t : Tree L} (ht : t.Distinct) (merge : Bool) : stored merge t t = t := by
  cases t with
  | object fields =>
      cases merge with
      | false => rfl
      | true => exact congrArg Tree.object (Fields.putAll_of_mem ht.1 fun field hf => hf)
  | _ => rfl

theorem stored_stored {news : List (String × Tree L)} (hn : Fields.Distinct news)
    (more : List (String × Tree L)) (t : Tree L) :
    stored true (.object more) (stored true (.object news) t) =
      stored true (.object (Fields.putAll more news)) t := by
  cases t with
  | object fields => exact congrArg Tree.object (Fields.putAll_putAll hn more fields)
  | _ => rfl

variable [Leaf L] {t t' x y z : Tree L} {path : Path} {merge later once : Bool}

theorem set_target (hx : x.Distinct) (merge : Bool) (t : Tree L) :
    Backend.set t [] x merge = .ok (stored merge x t) := by
  rw [Backend.set, setAt_target hx]

omit [Leaf L] in
/-- A write on top of another one is a single write, if it is one at the end of the path: for every
node that may stand there, and also where there was none. -/
theorem Written.again (hnode : ∀ node, stored later y (stored merge x node) = stored once z node)
    (hnone : stored later y x = z) (w : Written x merge path t t') :
    ∃ last, Written y later path t' last ∧ Written z once path t last := by
  induction w with
  | @target t =>
      have hlast : Written y later [] (stored merge x t) _ := .target
      rw [hnode] at hlast
      exact ⟨_, hlast, .target⟩
  | @item items i rest a b hi _ ih =>
      obtain ⟨last, hlast, honce⟩ := ih
      have hlt : i < items.length := (List.getElem?_eq_some_iff.1 hi).1
      have hitem := Written.item (List.getElem?_set_self hlt) hlast
      rw [List.set_set] at hitem
      exact ⟨_, hitem, .item hi honce⟩
  | @field fields name rest a b hf _ ih =>
      obtain ⟨last, hlast, honce⟩ := ih
      have hfield := Written.field (Fields.lookup_put_self name b fields) hlast
      rw [Fields.put_put] at hfield
      exact ⟨_, hfield, .field hf honce⟩
  | @fresh fields name hn =>
      have hlast : Written y later [] x _ := .target
      rw [hnone] at hlast
      have hfield := Written.field (Fields.lookup_put_self name x fields) hlast
      rw [Fields.put_put] at hfield
      exact ⟨_, hfield, .fresh hn⟩
  | @branch fields name next rest b hn _ ih =>
      obtain ⟨last, hlast, honce⟩ := ih
      have hfield := Written.field (Fields.lookup_put_self name b fields) hlast
      rw [Fields.put_put] at hfield
      exact ⟨_, hfield, .branch hn honce⟩

theorem set_again (hx : x.Distinct) (hy : y.Distinct) (hz : z.Distinct)
    (hnode : ∀ node, stored later y (stored merge x node) = stored once z node)
    (hnone : stored later y x = z) (h : Backend.set t path x merge = .ok t') :
    Backend.set t' path y later = Backend.set t path z once := by
  obtain ⟨last, hlast, honce⟩ := (written_of_set hx h).again hnode hnone
  rw [Backend.set, Backend.set, hlast.setAt_eq_ok hy, honce.setAt_eq_ok hz]

/-- A second write to a path takes the place of the first one; a node written where it was found
changes nothing, merged or not; and of two objects that are merged one after the other the second
may be merged into the first one beforehand. -/
theorem writes_compose (ht : t.Distinct) (hx : x.Distinct) (hy : y.Distinct) (path : Path) :
    (∀ merge t', Backend.set t path x merge = .ok t' →
      Backend.set t' path y false = Backend.set t path y false) ∧
    (∀ v, Backend.get t path = .ok (some v) → ∀ merge, Backend.set t path v merge = .ok t) ∧
    (∀ t', Backend.kind x = .object → Backend.kind y = .object →
      Backend.set t path x true = .ok t' →
      ∃ z, Backend.set x [] y true = .ok z ∧
        Backend.set t' path y true = Backend.set t path z true) := by
  refine ⟨fun merge t' h => ?_, fun v hv merge => ?_, fun t' hkx hky h => ?_⟩
  · have hnode (node : Tree L) : stored false y (stored merge x node) = stored false y node := by
      rw [stored_false, stored_false]
    exact set_again hx hy hy hnode (stored_false y x) h
  · have hd : v.Distinct := hereditary_distinct.get ht hv
    refine set_of_get hv ?_
    rw [set_target hd, stored_self hd]
  · obtain ⟨news, rfl⟩ := kind_eq_object.1 hkx
    obtain ⟨more, rfl⟩ := kind_eq_object.1 hky
    have hz : Distinct (.object (Fields.putAll more news) : Tree L) :=
      hereditary_distinct.putAll (fun field hf => hereditary_distinct.field hy hf) hx
    exact ⟨_, set_target hy true _, set_again hx hy hz (stored_stored hx.1 more) rfl h⟩

/-- The first write makes the object that is merged into, and its parent. -/
theorem writes_compose_made :
    let t : Value := .object [("c", Value.int 0)]
    let x : Value := .object [("p", Value.int 1), ("q", Value.int 2)]
    let y : Value := .object [("r", Value.int 4), ("p", Value.int 3)]
    let z : Value := .object [("p", Value.int 3), ("q", Value.int 2), ("r", Value.int 4)]
    let path : Path := [.name "a", .name "b"]
    ∃ t', Backend.set t path x true = .ok t' ∧
      Backend.set t' path y false = Backend.set t path y false ∧
      Backend.set t' path y true = Backend.set t path z true ∧
      Backend.set t [.name "c"] (Value.int 0) true = .ok t := by
  intro t x y z path
  have ht : t.Distinct := by simp [t, Distinct, DistinctFields, Fields.Distinct, Fields.names]
  have hx : x.Distinct := by simp [x, Distinct, DistinctFields, Fields.Distinct, Fields.names]
  have hy : y.Distinct := by simp [y, Distinct, DistinctFields, Fields.Distinct, Fields.names]
  obtain ⟨t', h⟩ : ∃ t', Backend.set t path x true = .ok t' := ⟨_, rfl⟩
  obtain ⟨hover, -, hmerged⟩ := writes_compose ht hx hy path
  obtain ⟨z', hz, hboth⟩ := hmerged t' rfl rfl h
  obtain rfl : z = z' := Except.ok.inj hz
  exact ⟨t', h, hover true t' h, hboth,
    (writes_compose ht hx hy [.name "c"]).2.1 (Value.int 0) rfl true⟩

end DataTree.Tree
