import DataTree.Json
import DataTree.Proofs.Coding.Decoded
import DataTree.Proofs.Coding.Encoded
import Mathlib.Data.List.Nodup

namespace DataTree

namespace Encoding

variable {S U : Type} {naming : Naming} {content : Encoding S U Unit} {node : S}

/-- Under the policy the encoding makes the node on a level of its own, wherever the level is. All
that it may change beside the level is the user state. -/
def MakesUnder (naming : Naming) (content : Encoding S U Unit) (node : S) : Prop :=
  ∀ e : Encoder S U, e.naming = naming → e.current = .empty → ∃ last user,
    content e = .ok () { e with current := last, user } ∧ last.node? = some node

theorem Makes.under (h : content.Makes (.ok node)) (naming : Naming) :
    content.MakesUnder naming node := by
  obtain ⟨finish, hfinish, hturns⟩ := h
  exact fun e _ he => ⟨finish node, e.user, hturns e he, hfinish node⟩

namespace MakesUnder

theorem run (h : content.MakesUnder naming node) (user : U) :
    (Encoding.run naming user content).1 = .ok node := by
  obtain ⟨last, user', hrun, hlast⟩ := h (.start [] naming user) rfl rfl
  simp only [Encoding.run, hrun, Encoder.result, hlast]

theorem inside [Backend S] (h : content.MakesUnder naming node) (key : Option Key)
    {e : Encoder S U} (he : e.naming = naming) :
    ∃ user, inside key content e = .ok ((), node) { e with user } := by
  obtain ⟨last, user, hrun, hlast⟩ := h (e.enter key) he rfl
  refine ⟨user, ?_⟩
  rw [Encoding.inside]
  simp only [hrun, Encoder.Draft.node, hlast]
  simp [Encoder.leave, Encoder.enter]

end MakesUnder

end Encoding

namespace Decoding

variable {S U α : Type} {naming : Naming} {content : Decoding S U α} {node : S} {x : α}

/-- Under the policy the decoding takes the node for the value on a level of its own, wherever the
level is. -/
def TakesUnder (naming : Naming) (content : Decoding S U α) (node : S) (x : α) : Prop :=
  ∀ d : Decoder S U, d.naming = naming → d.current = .fresh node → ∃ last user,
    content d = .ok x { d with current := last, user }

theorem Takes.under (h : content.Takes node x) (naming : Naming) :
    content.TakesUnder naming node x := by
  intro d _ hd
  obtain ⟨last, hrun⟩ := h d hd
  exact ⟨last, d.user, hrun⟩

namespace TakesUnder

theorem run (h : content.TakesUnder naming node x) (user : U) :
    (Decoding.run naming user node content).1 = .ok x := by
  obtain ⟨last, user', hrun⟩ := h (.start node [] naming user) rfl rfl
  rw [Decoding.run, hrun]

theorem inside (h : content.TakesUnder naming node x) (key : Key) {d : Decoder S U}
    (hd : d.naming = naming) :
    ∃ user, inside (some key) node content d = .ok x { d with user } := by
  obtain ⟨last, user, hrun⟩ := h (d.enter (some key) node) hd rfl
  refine ⟨user, ?_⟩
  rw [Decoding.inside, hrun]
  simp [Decoder.leave, Decoder.enter]

end TakesUnder

end Decoding

section Fields

variable {L U α : Type} [Leaf L] {naming : Naming} {node : Tree L}
  {fields : List (String × Tree L)} {key : String}

namespace Encoding.MakesUnder

variable {content : Encoding (Tree L) U Unit} (h : content.MakesUnder naming node)

include h

theorem encode {e : Encoder (Tree L) U} (he : e.naming = naming)
    (hcurrent : e.current = .keyed (.object fields))
    (hfresh : naming.apply key ∉ Fields.names fields) : ∃ user, Keyed.encode key content e =
      .ok () { e with
        current := .keyed (.object (fields ++ [(naming.apply key, node)])), user } := by
  subst he
  obtain ⟨user, hinside⟩ := h.inside (some (.name (e.naming.apply key))) (e := e) rfl
  refine ⟨user, ?_⟩
  have hinsert : Keyed.insert (e.naming.apply key) node { e with user } = .ok () { e with
      current := .keyed (.object (fields ++ [(e.naming.apply key, node)])), user } := by
    simp only [Keyed.insert, hcurrent, Tree.insertField_object, Fields.put_of_notMem hfresh]
  show Keyed.encodeNamed (e.naming.apply key) content e = _
  simp [Keyed.encodeNamed, hinside, hinsert]

end Encoding.MakesUnder

namespace Decoding

theorem run_find {d : Decoder (Tree L) U} (hnode : d.current.node = .object fields)
    {name : String} {found : Option (Tree L)} (hfind : List.lookup name fields = found) :
    Keyed.find name d = .ok found d := by
  subst hfind
  rw [Keyed.find, run_get_bind, hnode]
  rfl

variable {content : Decoding (Tree L) U α} {x : α} {d : Decoder (Tree L) U}
  (hd : d.naming = naming) (hnode : d.current.node = .object fields)

include hd hnode

theorem TakesUnder.decode (h : content.TakesUnder naming node x)
    (hfind : List.lookup (naming.apply key) fields = some node) :
    ∃ user, Keyed.decode key content d = .ok x { d with user } := by
  subst hd
  obtain ⟨user, hinside⟩ := h.inside (.name (d.naming.apply key)) (d := d) rfl
  refine ⟨user, ?_⟩
  simp [Keyed.decode, Keyed.decodeNamed, Keyed.require, run_find hnode hfind, hinside]

theorem TakesUnder.decodeOptional (h : content.TakesUnder naming node x)
    (hnull : Backend.isNull node = false)
    (hfind : List.lookup (naming.apply key) fields = some node) :
    ∃ user, Keyed.decodeOptional key content d = .ok (some x) { d with user } := by
  subst hd
  obtain ⟨user, hinside⟩ := h.inside (.name (d.naming.apply key)) (d := d) rfl
  refine ⟨user, ?_⟩
  simp [Keyed.decodeOptional, run_find hnode hfind, hnull, hinside]

theorem decodeOptional_missing (content : Decoding (Tree L) U α)
    (hfind : List.lookup (naming.apply key) fields = none) :
    Keyed.decodeOptional key content d = .ok none d := by
  subst hd
  simp [Keyed.decodeOptional, run_find hnode hfind]

end Decoding

end Fields

section RoundTrip

variable {X S U : Type} {D : X → Type} [Backend S]

/-- The value is encoded as the node, and the node is decoded as the value, on levels of their own
and wherever these are. -/
def Codable.RoundTrips (own : (x : X) → D x → Encoding S U Unit)
    (own' : (x : X) → Decoding S U (D x)) (naming : Naming) (t : Codable X) (x : t.Carrier D)
    (node : S) : Prop :=
  (t.encode own x).MakesUnder naming node ∧ (t.decode own').TakesUnder naming node x

theorem Codable.RoundTrips.toTree {own : (x : X) → D x → Encoding S U Unit}
    {own' : (x : X) → Decoding S U (D x)} {naming : Naming} {t : Codable X} {x : t.Carrier D}
    {node : S} (h : t.RoundTrips own own' naming x node) (user : U) :
    (t.toTree own naming user x).1 = .ok node := h.1.run user

theorem Codable.roundTrips_iff [LawfulBackend S] {D : Empty → Type}
    {own : (y : Empty) → D y → Encoding S U Unit} {own' : (y : Empty) → Decoding S U (D y)}
    {naming : Naming} {t : Codable Empty} {x : t.Carrier D} {node : S} (user : U) :
    t.RoundTrips own own' naming x node ↔
      (t.toTree own naming user x).1 = .ok node ∧ (t.ofTree own' naming user node).1 = .ok x := by
  constructor
  · intro h
    exact ⟨h.toTree user, h.2.run user⟩
  · rintro ⟨hmade, htaken⟩
    -- what a library type makes or takes depends on the value and the node alone
    have hmakes : (t.encode own x).Makes (t.render (fun y => y.elim) x) :=
      encode_makes (fun y => y.elim) t x
    have hgives : (t.decode own').Gives node (t.read (fun y => y.elim) node) :=
      decode_gives (fun y => y.elim) t node
    rw [toTree_eq_render] at hmade
    rw [ofTree_eq_read] at htaken
    change t.render (fun y => y.elim) x = .ok node at hmade
    change t.read (fun y => y.elim) node = .ok x at htaken
    rw [hmade] at hmakes
    rw [htaken] at hgives
    exact ⟨hmakes.under naming, Decoding.Takes.under hgives naming⟩

end RoundTrip

/-- A field as a program has it: a key, with a value of some type or with one that may be
missing. -/
inductive Member {X : Type} (D : X → Type)
  | required (key : String) (type : Codable X) (x : type.Carrier D)
  | optional (key : String) (type : Codable X) (x : Option (type.Carrier D))

namespace Member

variable {X S U : Type} {D : X → Type}

abbrev Carrier : Member D → Type
  | required _ type _ => type.Carrier D
  | optional _ type _ => Option (type.Carrier D)

def value : (m : Member D) → m.Carrier
  | required _ _ x => x
  | optional _ _ x => x

def key : Member D → String
  | required key _ _ => key
  | optional key _ _ => key

def present : Member D → Bool
  | required .. => true
  | optional _ _ x => x.isSome

abbrev storedName (naming : Naming) (m : Member D) : String := naming.apply m.key

section Model

variable [Backend S] (own : (x : X) → D x → Encoding S U Unit)
  (own' : (x : X) → Decoding S U (D x)) (naming : Naming)

def write : Member D → Encoding S U Unit
  | required key type x => Encoding.Keyed.encode key (type.encode own x)
  | optional key type x => Encoding.Keyed.encodeOptional key (x.map (type.encode own))

def writeAll : List (Member D) → Encoding S U Unit
  | [] => pure ()
  | m :: ms => do
    m.write own
    writeAll ms

def read : (m : Member D) → Decoding S U m.Carrier
  | required key type _ => Decoding.Keyed.decode key (type.decode own')
  | optional key type _ => Decoding.Keyed.decodeOptional key (type.decode own')

def readAll : List (Member D) → Decoding S U (List ((m : Member D) × m.Carrier))
  | [] => return []
  | m :: ms => do
    let x ← m.read own'
    return ⟨m, x⟩ :: (← readAll ms)

/-- The value comes back by itself. One that may be missing must not look so once encoded. -/
def RoundTrips : Member D → Prop
  | required _ type x => ∃ node, type.RoundTrips own own' naming x node
  | optional _ type x =>
    ∀ y ∈ x, ∃ node, type.RoundTrips own own' naming y node ∧ Backend.isNull node = false

/-- What the value is encoded as by itself, if there is one. -/
def node (user : U) : Member D → Option S
  | required _ type x => (type.toTree own naming user x).1.toOption
  | optional _ type x => x.bind fun y => (type.toTree own naming user y).1.toOption

def fields (user : U) (ms : List (Member D)) : List (String × S) :=
  ms.filterMap fun m => (m.node own naming user).map (m.storedName naming, ·)

end Model

section Fields

variable [Backend S] {own : (x : X) → D x → Encoding S U Unit}
  {own' : (x : X) → Decoding S U (D x)} {naming : Naming} {user : U} {m : Member D}
  {ms : List (Member D)}

theorem fields_cons (m : Member D) (ms : List (Member D)) : fields own naming user (m :: ms) =
    fields own naming user [m] ++ fields own naming user ms := List.filterMap_append (l := [m])

theorem fields_none (h : m.node own naming user = none) : fields own naming user [m] = [] := by
  simp [fields, h]

theorem fields_some {found : S} (h : m.node own naming user = some found) :
    fields own naming user [m] = [(m.storedName naming, found)] := by
  simp [fields, h]

theorem isSome_node (h : m.RoundTrips own own' naming) (user : U) :
    (m.node own naming user).isSome = m.present := by
  cases m with
  | required key type x =>
      obtain ⟨found, hfound⟩ := h
      rw [node, hfound.toTree user]
      rfl
  | optional key type x =>
      cases x with
      | none => rfl
      | some y =>
          obtain ⟨found, hfound, -⟩ := h y rfl
          rw [node, Option.bind_some, hfound.toTree user]
          rfl

theorem names_sublist (ms : List (Member D)) :
    (Fields.names (fields own naming user ms)).Sublist (ms.map (storedName naming)) := by
  induction ms with
  | nil => exact List.Sublist.refl _
  | cons m ms ih =>
      rw [fields_cons, Fields.names_append]
      cases hnode : m.node own naming user with
      | none =>
          rw [fields_none hnode]
          exact ih.cons _
      | some found =>
          rw [fields_some hnode]
          exact ih.cons_cons _

theorem names_fields (h : ∀ m ∈ ms, m.RoundTrips own own' naming) :
    Fields.names (fields own naming user ms) = (ms.filter present).map (storedName naming) := by
  induction ms with
  | nil => rfl
  | cons m ms ih =>
      have hpresent := isSome_node (h m List.mem_cons_self) user
      rw [fields_cons, Fields.names_append,
        ih fun other hother => h other (List.mem_cons_of_mem _ hother)]
      cases hnode : m.node own naming user with
      | none =>
          rw [hnode] at hpresent
          rw [fields_none hnode, List.filter_cons_of_neg (hpresent ▸ Bool.false_ne_true)]
          rfl
      | some found =>
          rw [hnode] at hpresent
          rw [fields_some hnode, List.filter_cons_of_pos hpresent.symm]
          rfl

theorem lookup_fields (hd : (ms.map (storedName naming)).Nodup) (hm : m ∈ ms) :
    List.lookup (m.storedName naming) (fields own naming user ms) = m.node own naming user := by
  cases hnode : m.node own naming user with
  | some found =>
      have hdistinct : Fields.Distinct (fields own naming user ms) := hd.sublist (names_sublist ms)
      refine Fields.lookup_of_mem hdistinct (List.mem_filterMap.2 ⟨m, hm, ?_⟩)
      rw [hnode]
      rfl
  | none =>
      refine Fields.lookup_eq_none.2 fun hname => ?_
      obtain ⟨field, hfield, hsame⟩ := List.mem_map.1 hname
      obtain ⟨other, hother, hmade⟩ := List.mem_filterMap.1 hfield
      obtain ⟨found, hfound, rfl⟩ := Option.map_eq_some_iff.1 hmade
      -- no other member is stored under this name
      obtain rfl : other = m := List.inj_on_of_nodup_map hd hother hm hsame
      cases hnode.symm.trans hfound

end Fields

section Runs

variable {L : Type} [Leaf L] {own : (x : X) → D x → Encoding (Tree L) U Unit}
  {own' : (x : X) → Decoding (Tree L) U (D x)} {naming : Naming} {m : Member D}
  {ms : List (Member D)} {done : List (String × Tree L)}

theorem write_run (h : m.RoundTrips own own' naming) (user : U) {e : Encoder (Tree L) U}
    (he : e.naming = naming) (hcurrent : e.current = .keyed (.object done))
    (hfresh : m.storedName naming ∉ Fields.names done) : ∃ last, m.write own e =
      .ok () { e with
        current := .keyed (.object (done ++ fields own naming user [m])), user := last } := by
  cases m with
  | required key type x =>
      obtain ⟨found, hfound⟩ := h
      have hnode : (required key type x).node own naming user = some found := by
        rw [node, hfound.toTree user]
        rfl
      rw [fields_some hnode]
      exact hfound.1.encode he hcurrent hfresh
  | optional key type x =>
      cases x with
      | none =>
          refine ⟨e.user, ?_⟩
          rw [fields_none rfl, List.append_nil, ← hcurrent]
          rfl
      | some y =>
          obtain ⟨found, hfound, -⟩ := h y rfl
          have hnode : (optional key type (some y)).node own naming user = some found := by
            rw [node, Option.bind_some, hfound.toTree user]
            rfl
          rw [fields_some hnode]
          exact hfound.1.encode he hcurrent hfresh

theorem writeAll_run (h : ∀ m ∈ ms, m.RoundTrips own own' naming) (user : U)
    {e : Encoder (Tree L) U} (he : e.naming = naming)
    (hcurrent : e.current = .keyed (.object done))
    (hd : (Fields.names done ++ ms.map (storedName naming)).Nodup) : ∃ last, writeAll own ms e =
      .ok () { e with
        current := .keyed (.object (done ++ fields own naming user ms)), user := last } := by
  induction ms generalizing e done with
  | nil =>
      refine ⟨e.user, ?_⟩
      rw [fields, List.filterMap_nil, List.append_nil, ← hcurrent]
      rfl
  | cons m ms ih =>
      have hfresh : m.storedName naming ∉ Fields.names done := fun hname =>
        (List.nodup_append.1 hd).2.2 _ hname _ List.mem_cons_self rfl
      obtain ⟨last, hfirst⟩ := write_run (h m List.mem_cons_self) user he hcurrent hfresh
      have hrest : (Fields.names (done ++ fields own naming user [m]) ++
          ms.map (storedName naming)).Nodup := by
        rw [Fields.names_append, List.append_assoc]
        exact hd.sublist ((List.Sublist.refl _).append
          ((names_sublist [m]).append (List.Sublist.refl _)))
      obtain ⟨last', hrun⟩ := ih (fun other hother => h other (List.mem_cons_of_mem _ hother))
        (e := { e with
          current := .keyed (.object (done ++ fields own naming user [m])), user := last })
        he rfl hrest
      refine ⟨last', ?_⟩
      simp only [writeAll, run_bind, hfirst]
      rw [hrun, List.append_assoc, ← fields_cons]

theorem read_run (h : m.RoundTrips own own' naming) (user : U) {d : Decoder (Tree L) U}
    (hnaming : d.naming = naming) (hnode : d.current.node = .object done)
    (hfind : List.lookup (m.storedName naming) done = m.node own naming user) :
    ∃ last, m.read own' d = .ok m.value { d with user := last } := by
  cases m with
  | required key type x =>
      obtain ⟨found, hfound⟩ := h
      rw [node, hfound.toTree user] at hfind
      exact hfound.2.decode hnaming hnode hfind
  | optional key type x =>
      cases x with
      | none => exact ⟨d.user, Decoding.decodeOptional_missing hnaming hnode _ hfind⟩
      | some y =>
          obtain ⟨found, hfound, hnull⟩ := h y rfl
          rw [node, Option.bind_some, hfound.toTree user] at hfind
          exact hfound.2.decodeOptional hnaming hnode hnull hfind

theorem readAll_run {reads : List (Member D)} (h : ∀ m ∈ reads, m.RoundTrips own own' naming)
    (user : U) {d : Decoder (Tree L) U} (hnaming : d.naming = naming)
    (hnode : d.current.node = .object done)
    (hfind : ∀ m ∈ reads, List.lookup (m.storedName naming) done = m.node own naming user) :
    ∃ last, readAll own' reads d =
      .ok (reads.map fun m => ⟨m, m.value⟩) { d with user := last } := by
  induction reads generalizing d with
  | nil => exact ⟨d.user, rfl⟩
  | cons m reads ih =>
      obtain ⟨last, hfirst⟩ := read_run (h m List.mem_cons_self) user hnaming hnode
        (hfind m List.mem_cons_self)
      obtain ⟨last', hrest⟩ := ih (fun other hother => h other (List.mem_cons_of_mem _ hother))
        (d := { d with user := last }) hnaming hnode
        (fun other hother => hfind other (List.mem_cons_of_mem _ hother))
      refine ⟨last', ?_⟩
      simp [readAll, hfirst, hrest]

end Runs

/-- Members that a policy gives different names, and whose values come back by themselves, can be
written in any order. This gives objects that differ in the order of their fields only: each holds
under the name of a member what its value is encoded as by itself. From each of them the members are
read in any order and as often as one likes, and every time as they were; and the names that are
listed are those of the members that were written. -/
theorem written_in_any_order {L : Type} [Leaf L] {own : (x : X) → D x → Encoding (Tree L) U Unit}
    {own' : (x : X) → Decoding (Tree L) U (D x)} {naming : Naming} {members : List (Member D)}
    (hd : (members.map (storedName naming)).Nodup)
    (h : ∀ m ∈ members, m.RoundTrips own own' naming) {order : List (Member D)}
    (horder : order.Perm members) (user user' : U) :
    (Encoding.run naming user (do Encoding.keyed; writeAll own order)).1 =
      .ok (Tree.object (fields own naming user order)) ∧
    (fields own naming user order).Perm (fields own naming user members) ∧
    ∀ reads : List (Member D), (∀ m ∈ reads, m ∈ members) →
      (Decoding.run naming user' (Tree.object (fields own naming user order)) (do
        Decoding.keyed
        let xs ← readAll own' reads
        return (xs, ← Decoding.Keyed.names))).1 =
      .ok (reads.map fun m => ⟨m, m.value⟩, (order.filter present).map (storedName naming)) := by
  have hdistinct : (order.map (storedName naming)).Nodup := (horder.map _).nodup_iff.2 hd
  have hround : ∀ m ∈ order, m.RoundTrips own own' naming := fun m hm => h m (horder.subset hm)
  refine ⟨?_, horder.filterMap _, fun reads hreads => ?_⟩
  · obtain ⟨last, hrun⟩ := writeAll_run hround user
      (e := ⟨.keyed (.object []), [], [], naming, user⟩) rfl rfl hdistinct
    have hkeyed : Encoding.keyed (.start [] naming user) =
        .ok () (⟨.keyed (.object []), [], [], naming, user⟩ : Encoder (Tree L) U) := rfl
    simp only [Encoding.run, run_bind, hkeyed, hrun]
    rfl
  · obtain ⟨last, hrun⟩ := readAll_run (fun m hm => h m (hreads m hm)) user
      (d := ⟨Decoding.claimed (.object (fields own naming user order)) 0, [], [], naming, user'⟩)
      rfl rfl (fun m hm => lookup_fields hdistinct (horder.symm.subset (hreads m hm)))
    have hkeyed : Decoding.keyed
        (.start (.object (fields own naming user order)) [] naming user') =
        .ok () (⟨Decoding.claimed (.object (fields own naming user order)) 0, [], [], naming,
          user'⟩ : Decoder (Tree L) U) := rfl
    rw [← names_fields hround]
    simp only [Decoding.run, run_bind, hkeyed, hrun]
    rfl

/-- A field that is missing, between two with keys that the policy rewrites. -/
theorem written_in_any_order_snake :
    let own : (y : Empty) → Empty → Encoding Json Unit Unit := fun y => y.elim
    let own' : (y : Empty) → Decoding Json Unit Empty := fun y => y.elim
    let tags : Member (fun _ : Empty => Empty) :=
      .required "nickNames" (.list (.prim .string)) ["a"]
    let page : Member (fun _ : Empty => Empty) := .optional "homeURL" (.prim .string) none
    let lucky : Member (fun _ : Empty => Empty) := .optional "isLucky" (.prim .bool) (some true)
    let object : Json :=
      Tree.object [("is_lucky", Backend.bool true), ("nick_names", .array [Backend.string "a"])]
    ([tags, page, lucky].map (storedName .snake)).Nodup ∧
      (∀ m ∈ [tags, page, lucky], m.RoundTrips own own' .snake) ∧
      (Encoding.run .snake () (do
        Encoding.keyed
        writeAll own [lucky, page, tags])).1 = .ok object ∧
      (Decoding.run .snake () object (do
        Decoding.keyed
        let xs ← readAll own' [tags, page, tags, lucky]
        return (xs, ← Decoding.Keyed.names))).1 =
      .ok ([⟨tags, ["a"]⟩, ⟨page, none⟩, ⟨tags, ["a"]⟩, ⟨lucky, some true⟩],
        ["is_lucky", "nick_names"]) := by
  intro own own' tags page lucky object
  have hd : ([tags, page, lucky].map (storedName .snake)).Nodup := by decide
  have hstrings : (Codable.list (.prim .string)).RoundTrips own own' .snake ["a"]
      (Tree.array [Backend.string "a"]) := by
    refine (Codable.roundTrips_iff ()).2 ⟨?_, ?_⟩
    · rw [Codable.toTree_eq_render]
      rfl
    · rw [Codable.ofTree_eq_read]
      rfl
  have hbool : (Codable.prim .bool).RoundTrips own own' .snake true (Backend.bool true) := by
    refine (Codable.roundTrips_iff ()).2 ⟨?_, ?_⟩
    · rw [Codable.toTree_eq_render]
      rfl
    · rw [Codable.ofTree_eq_read]
      rfl
  have h : ∀ m ∈ [tags, page, lucky], m.RoundTrips own own' .snake := by
    refine List.forall_mem_cons.2 ⟨⟨_, hstrings⟩, List.forall_mem_cons.2 ⟨nofun, ?_⟩⟩
    refine List.forall_mem_singleton.2 fun y hy => ?_
    cases hy
    exact ⟨_, hbool, rfl⟩
  have horder : [lucky, page, tags].Perm [tags, page, lucky] :=
    List.reverse_perm [tags, page, lucky]
  have htagsName : storedName .snake tags = "nick_names" := by decide
  have hluckyName : storedName .snake lucky = "is_lucky" := by decide
  have htags : tags.node own .snake () = some (Tree.array [Backend.string "a"]) :=
    congrArg Except.toOption (hstrings.toTree ())
  have hlucky : lucky.node own .snake () = some (Backend.bool true) :=
    congrArg Except.toOption (hbool.toTree ())
  have hfields : fields own .snake () [lucky, page, tags] =
      [("is_lucky", Backend.bool true), ("nick_names", Tree.array [Backend.string "a"])] := by
    rw [fields_cons, fields_some hlucky, fields_cons, fields_none rfl, fields_some htags,
      htagsName, hluckyName]
    rfl
  have hnames : ([lucky, page, tags].filter present).map (storedName .snake) =
      ["is_lucky", "nick_names"] := by
    show [storedName .snake lucky, storedName .snake tags] = _
    rw [htagsName, hluckyName]
  obtain ⟨hwritten, -, hread⟩ := written_in_any_order hd h horder () ()
  rw [hfields] at hwritten hread
  rw [hnames] at hread
  have hreads : ∀ m ∈ [tags, page, tags, lucky], m ∈ [tags, page, lucky] := by simp
  exact ⟨hd, h, hwritten, hread _ hreads⟩

end Member

end DataTree
