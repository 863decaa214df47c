import DataTree.Proofs.Coding.Keyed

namespace DataTree

/-- A field with a primitive value. -/
structure Entry where
  key : String
  type : Primitive
  value : type.Carrier

namespace Entry

open Codable (readPrim readField)

variable {X S U : Type} {D : X → Type}

abbrev member (entry : Entry) : Member D := .required entry.key (.prim entry.type) entry.value

variable [Backend S]

def node (entry : Entry) : Except Error S := (writeLeaf entry.type entry.value).mapError Error.root

def stored (naming : Naming) (entries : List Entry) : List (String × Entry) :=
  entries.map fun entry => (naming.apply entry.key, entry)

variable {naming : Naming} {entries : List Entry}

section Writing

variable (own : (x : X) → D x → Encoding S U Unit)

def content (entry : Entry) : Encoding S U Unit :=
  (Codable.prim entry.type).encode own entry.value

theorem content_makes (entry : Entry) : (entry.content own).Makes entry.node :=
  .prim entry.type entry.value

theorem writeAll_eq {e : Encoder S U} {object : S} (he : e.naming = naming)
    (hcurrent : e.current = .keyed object) :
    Member.writeAll own (entries.map member) e = Encoding.Keyed.encodeEntries
      ((stored naming entries).map fun (name, entry) => (name, entry.content own)) e := by
  induction entries generalizing e object with
  | nil => rfl
  | cons entry rest ih =>
      subst he
      have hfield := (content_makes own entry).field (e.naming.apply entry.key) object
      show (Encoding.Keyed.encodeNamed (e.naming.apply entry.key) (entry.content own) >>= fun _ =>
        Member.writeAll own (rest.map member)) e = (Encoding.Keyed.encodeNamed _ _ >>= fun _ => _) e
      cases hmade : insertMade node (e.naming.apply entry.key) entry object with
      | ok object' =>
          rw [hmade] at hfield
          have hrun := hfield e hcurrent
          simp only [run_bind, hrun]
          exact ih rfl rfl
      | error err =>
          rw [hmade] at hfield
          obtain ⟨last, hrun⟩ := hfield e hcurrent
          simp only [run_bind, hrun]

theorem run_writeAll (user : U) :
    Encoding.run naming user (do Encoding.keyed; Member.writeAll own (entries.map member)) =
      (insertEach node (stored naming entries) Backend.object, user) := by
  have hkeyed : Encoding.keyed (.start [] naming user) =
      .ok () (⟨.keyed Backend.object, [], [], naming, user⟩ : Encoder S U) := rfl
  have hnaming : (⟨.keyed Backend.object, [], [], naming, user⟩ : Encoder S U).naming = naming :=
    rfl
  have hmakes := Encoding.Makes.entries (content_makes own) (stored naming entries)
  rw [← hmakes.run naming user]
  simp only [Encoding.run, run_bind, hkeyed, writeAll_eq own hnaming rfl]

end Writing

section Reading

variable (own : (x : X) → Decoding S U (D x)) {tree : S}
  (h : ∀ entry ∈ entries,
    readField (readPrim entry.type) tree (naming.apply entry.key) = .ok entry.value)

include h

theorem readAll_eq {d : Decoder S U} (hd : d.naming = naming) (hnode : d.current.node = tree) :
    Member.readAll own (entries.map member) d =
      .ok (entries.map fun entry => ⟨entry.member, entry.value⟩) d := by
  induction entries with
  | nil => rfl
  | cons entry rest ih =>
      obtain ⟨hfirst, hrest⟩ := List.forall_mem_cons.1 h
      subst hd
      have hgives (child : S) : ((Codable.prim entry.type).decode own).Gives child
          (readPrim entry.type child) := .prim entry.type
      have hread : (entry.member : Member D).read own d = .ok entry.value d := by
        have hfield := Decoding.Gives.field hgives (d.naming.apply entry.key) hnode
        rw [hfirst] at hfield
        exact hfield
      simp [Member.readAll, hread, ih hrest]

theorem run_readAll (hkind : Backend.kind tree = .object) (user : U) :
    Decoding.run naming user tree (do Decoding.keyed; Member.readAll own (entries.map member)) =
      (.ok (entries.map fun entry => ⟨entry.member, entry.value⟩), user) := by
  have hkeyed : Decoding.keyed (.start tree [] naming user) =
      .ok () (⟨Decoding.claimed tree 0, [], [], naming, user⟩ : Decoder S U) := by
    rw [Decoding.keyed_eq]
    exact (if_pos hkind).trans (Decoding.claim_fresh .keyed rfl)
  have hread := readAll_eq own h (d := ⟨Decoding.claimed tree 0, [], [], naming, user⟩) rfl rfl
  simp only [Decoding.run, run_bind, hkeyed, hread]

end Reading

end Entry

end DataTree
