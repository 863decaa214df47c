import DataTree.Codable
import DataTree.Proofs.Backend.Building
import DataTree.Proofs.Backend.Lawful

namespace DataTree

namespace Encoding

variable {S U α : Type}

/-- On a level with a draft the encoding leaves another draft, or fails, as `outcome` says. It moves
neither the path nor the levels around it, and says where on the path it failed. -/
def Turns (content : Encoding S U Unit) (draft : Encoder.Draft S) :
    (outcome : Except Error (Encoder.Draft S)) → Prop
  | .ok next => ∀ e : Encoder S U, e.current = draft → content e = .ok () { e with current := next }
  | .error err => ∀ e : Encoder S U, e.current = draft → ∃ last,
      content e = .error (err.within e.path) { e with current := last }

namespace Turns

variable {first second : Encoding S U Unit} {draft next : Encoder.Draft S}

theorem seq {outcome : Except Error (Encoder.Draft S)} (h : first.Turns draft (.ok next))
    (h' : second.Turns next outcome) :
    (do first; second : Encoding S U Unit).Turns draft outcome := by
  cases outcome with
  | ok last =>
      intro e he
      rw [run_bind_of_ok (h e he)]
      exact h' { e with current := next } rfl
  | error err =>
      intro e he
      rw [run_bind_of_ok (h e he)]
      exact h' { e with current := next } rfl

theorem stop {err : Error} (h : first.Turns draft (.error err)) :
    (do first; second : Encoding S U Unit).Turns draft (.error err) := by
  intro e he
  obtain ⟨last, hrun⟩ := h e he
  exact ⟨last, by simp [hrun]⟩

theorem done (draft : Encoder.Draft S) : (pure () : Encoding S U Unit).Turns draft (.ok draft) := by
  rintro e rfl
  rfl

theorem claim (c : Container) : (claim c draft : Encoding S U Unit).Turns .empty (.ok draft) := by
  intro e he
  rw [Encoding.claim, he]

end Turns

/-- On a level of its own the encoding makes a node, or fails. -/
def Makes (content : Encoding S U Unit) (outcome : Except Error S) : Prop :=
  ∃ finish : S → Encoder.Draft S, (∀ node, (finish node).node? = some node) ∧
    content.Turns .empty (outcome.map finish)

namespace Makes

variable {content : Encoding S U Unit} {outcome : Except Error S}

theorem run (h : content.Makes outcome) (naming : Naming) (user : U) :
    Encoding.run naming user content = (outcome, user) := by
  obtain ⟨finish, hfinish, hturns⟩ := h
  rw [Encoding.run]
  cases outcome with
  | ok node =>
      have hrun := hturns (.start [] naming user) rfl
      simp only [hrun, Encoder.result, hfinish]
      rfl
  | error err =>
      obtain ⟨last, hrun⟩ := hturns (.start [] naming user) rfl
      simp only [hrun]
      rfl

theorem inside_ok [Backend S] {node : S} (h : content.Makes (.ok node)) (key : Option Key)
    (e : Encoder S U) : inside key content e = .ok ((), node) e := by
  obtain ⟨finish, hfinish, hturns⟩ := h
  have hrun := hturns (e.enter key) rfl
  rw [Encoding.inside]
  simp only [hrun, Encoder.Draft.node, hfinish]
  simp [Encoder.leave, Encoder.enter]

theorem inside_error [Backend S] {err : Error} (h : content.Makes (.error err)) (key : Option Key)
    (e : Encoder S U) :
    inside key content e = .error (err.within (e.path ++ key.toList)) e := by
  obtain ⟨finish, -, hturns⟩ := h
  obtain ⟨last, hrun⟩ := hturns (e.enter key) rfl
  have hpath : (e.enter key).path = e.path ++ key.toList := rfl
  rw [Encoding.inside]
  simp only [hrun, Error.orAt_within, hpath]
  simp [Encoder.leave, Encoder.enter]

section Single

theorem store (node : S) : (do single; Single.store node : Encoding S U Unit).Makes (.ok node) := by
  refine ⟨fun node => .single (some node), fun _ => rfl, (Turns.claim .single).seq ?_⟩
  intro e he
  rw [Single.store, he]

variable [Backend S]

theorem null : (do single; Single.encodeNil : Encoding S U Unit).Makes (.ok Backend.null) :=
  store Backend.null

theorem prim (p : Primitive) (x : p.Carrier) :
    (do single; Single.encodePrimitive p x : Encoding S U Unit).Makes
      ((writeLeaf p x).mapError Error.root) := by
  rw [Single.encodePrimitive]
  cases (writeLeaf p x : Except Fault S) with
  | ok node => exact store node
  | error fault =>
      refine ⟨fun node => .single (some node), fun _ => rfl, (Turns.claim .single).seq ?_⟩
      intro e he
      exact ⟨e.current, rfl⟩

theorem value (v : Value) :
    (do single; Single.encodeTree v : Encoding S U Unit).Makes (ofValue v) := by
  refine ⟨fun node => .single (some node), fun _ => rfl, (Turns.claim .single).seq ?_⟩
  cases hv : (ofValue v : Except Error S) with
  | ok node =>
      intro e he
      simp only [Single.encodeTree, hv, Single.store, he]
  | error err =>
      intro e he
      refine ⟨e.current, ?_⟩
      simp only [Single.encodeTree, hv]

end Single

variable [Backend S] {f : α → Encoding S U Unit} {g : α → Except Error S}

section Items

variable [LawfulBackend S]

theorem item {x : α} (h : (f x).Makes (g x)) (done : List S) (index : Nat) :
    (Sequential.encode (f x)).Turns (.sequential (Backend.array done) index)
      (((g x).mapError (Error.within [.index index])).map fun node =>
        .sequential (Backend.array (done ++ [node])) (index + 1)) := by
  have hcount (e : Encoder S U) (he : e.current = .sequential (Backend.array done) index) :
      Sequential.count e = .ok index e := by
    rw [Sequential.count, run_get_bind, he]
    rfl
  cases hg : g x with
  | error err =>
      intro e he
      rw [hg] at h
      refine ⟨e.current, ?_⟩
      simp [Sequential.encode, hcount e he, h.inside_error]
  | ok node =>
      intro e he
      rw [hg] at h
      have hpush : Sequential.push index node e = .ok ()
          { e with current := .sequential (Backend.array (done ++ [node])) (index + 1) } := by
        simp only [Sequential.push, he, LawfulBackend.pushItem_array]
      simp [Sequential.encode, hcount e he, h.inside_ok, hpush]

theorem items (h : ∀ x, (f x).Makes (g x)) (xs : List α) (done : List S) (index : Nat) :
    (Sequential.encodeAll (xs.map f)).Turns (.sequential (Backend.array done) index)
      ((eachItem g index xs).map fun nodes =>
        .sequential (Backend.array (done ++ nodes)) (index + xs.length)) := by
  induction xs generalizing done index with
  | nil =>
      show Turns _ _ (.ok (.sequential (Backend.array (done ++ [])) _))
      rw [List.append_nil]
      exact Turns.done _
  | cons x xs ih =>
      have hx := item (h x) done index
      rw [List.map_cons, Sequential.encodeAll, eachItem]
      cases hg : g x with
      | error err =>
          rw [hg] at hx
          exact hx.stop
      | ok node =>
          rw [hg] at hx
          have hrest := hx.seq (ih (done ++ [node]) (index + 1))
          cases hxs : eachItem g (index + 1) xs with
          | error err =>
              rw [hxs] at hrest
              exact hrest
          | ok nodes =>
              rw [hxs] at hrest
              have happend : done ++ [node] ++ nodes = done ++ node :: nodes := by simp
              have hcount : index + 1 + xs.length = index + (x :: xs).length := by
                rw [List.length_cons]
                omega
              simp only [Except.map, happend, hcount] at hrest
              exact hrest

end Items

section Fields

theorem field {x : α} (h : (f x).Makes (g x)) (name : String) (object : S) :
    (Keyed.encodeNamed name (f x)).Turns (.keyed object)
      ((insertMade g name x object).map .keyed) := by
  cases hg : g x with
  | error err =>
      rw [insertMade_of_error hg]
      intro e he
      rw [hg] at h
      refine ⟨e.current, ?_⟩
      simp [Keyed.encodeNamed, h.inside_error]
  | ok node =>
      rw [hg] at h
      cases hinsert : Backend.insertField name node object with
      | ok _ object' =>
          rw [insertMade_of_ok hg hinsert]
          intro e he
          have hinserted : Keyed.insert name node e =
              .ok () { e with current := .keyed object' } := by
            simp only [Keyed.insert, he, hinsert]
          simp [Keyed.encodeNamed, h.inside_ok, hinserted]
      | error fault object' =>
          rw [insertMade_of_refused hg hinsert]
          intro e he
          have hrefused : Keyed.insert name node e =
              .error ⟨fault, e.path ++ [.name name]⟩ { e with current := .keyed object' } := by
            simp only [Keyed.insert, he, hinsert]
            rfl
          refine ⟨.keyed object', ?_⟩
          simp [Keyed.encodeNamed, h.inside_ok, hrefused, Error.within]

theorem fields {entries : List (String × α)} (h : ∀ x, (f x).Makes (g x)) (object : S) :
    (Keyed.encodeEntries (entries.map fun (name, x) => (name, f x))).Turns (.keyed object)
      ((insertEach g entries object).map .keyed) := by
  induction entries generalizing object with
  | nil => exact Turns.done (.keyed object)
  | cons entry entries ih =>
      obtain ⟨name, x⟩ := entry
      have hx := field (h x) name object
      rw [List.map_cons, Keyed.encodeEntries, insertEach]
      cases hmade : insertMade g name x object with
      | error err =>
          rw [hmade] at hx
          exact hx.stop
      | ok object' =>
          rw [hmade] at hx
          exact hx.seq (ih object')

end Fields

theorem list [LawfulBackend S] (h : ∀ x, (f x).Makes (g x)) (xs : List α) :
    (do sequential; Sequential.encodeAll (xs.map f) : Encoding S U Unit).Makes
      ((eachItem g 0 xs).map Backend.array) := by
  refine ⟨fun array => .sequential array (0 + xs.length), fun _ => rfl,
    (Turns.claim .sequential).seq ?_⟩
  have hall := items h xs [] 0
  cases hxs : eachItem g 0 xs with
  | ok nodes =>
      rw [hxs] at hall
      exact hall
  | error err =>
      rw [hxs] at hall
      exact hall

theorem entries (h : ∀ x, (f x).Makes (g x)) (entries : List (String × α)) :
    (do keyed; Keyed.encodeEntries (entries.map fun (name, x) => (name, f x)) :
      Encoding S U Unit).Makes (insertEach g entries Backend.object) :=
  ⟨.keyed, fun _ => rfl, (Turns.claim .keyed).seq (fields h Backend.object)⟩

end Makes

end Encoding

namespace Codable

variable {X S U : Type} {D : X → Type} [Backend S]

/-- The node that a value becomes, with whatever the types of the user's own become. -/
def render (own : (x : X) → D x → Except Error S) : (t : Codable X) → t.Carrier D → Except Error S
  | prim p, x => (writeLeaf p x).mapError Error.root
  | value, v => ofValue v
  | list item, xs => (eachItem (item.render own) 0 xs).map Backend.array
  | option content, some x => content.render own x
  | option _, none => .ok Backend.null
  | boxed content, x => content.render own x
  | sortedMap content, map => insertEach (content.render own) map.entries Backend.object
  | dictionary content, map => insertEach (content.render own) map.entries Backend.object
  | custom x, y => own x y

theorem encode_makes [LawfulBackend S] {own : (x : X) → D x → Encoding S U Unit}
    {made : (x : X) → D x → Except Error S} (h : ∀ x y, (own x y).Makes (made x y)) (t : Codable X)
    (x : t.Carrier D) : (t.encode own x).Makes (t.render made x) := by
  induction t with
  | prim p => exact .prim p x
  | value => exact .value x
  | list item ih => exact .list ih x
  | option content ih =>
      cases x with
      | some x => exact ih x
      | none => exact .null
  | boxed content ih => exact ih x
  | sortedMap content ih => exact .entries ih x.entries
  | dictionary content ih => exact .entries ih x.entries
  | custom y => exact h y x

theorem toTree_eq_render [LawfulBackend S] {D : Empty → Type}
    (own : (y : Empty) → D y → Encoding S U Unit) (naming : Naming) (user : U) (t : Codable Empty)
    (x : t.Carrier D) : t.toTree own naming user x = (t.render (fun y => y.elim) x, user) :=
  Encoding.Makes.run (encode_makes (fun y => y.elim) t x) naming user

end Codable

end DataTree
