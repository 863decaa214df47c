import DataTree.Proofs.Tree.Recovery

namespace DataTree

section Contents

variable {α β : Type} {f : α → Except Error β}

/-- Handles the contents of fields in order; a failure carries the name of its field. -/
def eachContent (f : α → Except Error β) : List (String × α) → Except Error (List (String × β))
  | [] => .ok []
  | (name, x) :: rest => do
    let y ← (f x).mapError (Error.within [.name name])
    let ys ← eachContent f rest
    return (name, y) :: ys

theorem eachContent_cons_eq_ok {name : String} {x : α} {rest : List (String × α)}
    {ys : List (String × β)} : eachContent f ((name, x) :: rest) = .ok ys ↔
      ∃ z zs, f x = .ok z ∧ eachContent f rest = .ok zs ∧ ys = (name, z) :: zs := by
  rw [eachContent]
  simp only [bind_eq_ok, mapError_eq_ok, pure, Except.pure, Except.ok.injEq]
  constructor
  · rintro ⟨z, hz, zs, hzs, rfl⟩
    exact ⟨z, zs, hz, hzs, rfl⟩
  · rintro ⟨z, zs, hz, hzs, rfl⟩
    exact ⟨z, hz, zs, hzs, rfl⟩

theorem names_eachContent {fields : List (String × α)} {ys : List (String × β)}
    (h : eachContent f fields = .ok ys) : Fields.names ys = Fields.names fields := by
  induction fields generalizing ys with
  | nil =>
      cases h
      rfl
  | cons field rest ih =>
      obtain ⟨z, zs, -, hzs, rfl⟩ := eachContent_cons_eq_ok.1 h
      rw [Fields.names_cons, Fields.names_cons, ih hzs]

theorem exists_of_mem_eachContent {fields : List (String × α)} {ys : List (String × β)}
    (h : eachContent f fields = .ok ys) {field : String × β} (hm : field ∈ ys) :
    ∃ x, (field.1, x) ∈ fields ∧ f x = .ok field.2 := by
  induction fields generalizing ys with
  | nil =>
      cases h
      cases hm
  | cons first rest ih =>
      obtain ⟨z, zs, hz, hzs, rfl⟩ := eachContent_cons_eq_ok.1 h
      rcases List.mem_cons.1 hm with rfl | hm
      · exact ⟨first.2, List.mem_cons_self, hz⟩
      · obtain ⟨x, hx, hfx⟩ := ih hzs hm
        exact ⟨x, List.mem_cons_of_mem _ hx, hfx⟩

theorem ok_of_mem_eachContent {fields : List (String × α)} {ys : List (String × β)}
    (h : eachContent f fields = .ok ys) {field : String × α} (hm : field ∈ fields) :
    ∃ y, f field.2 = .ok y := by
  induction fields generalizing ys with
  | nil => cases hm
  | cons first rest ih =>
      obtain ⟨z, zs, hz, hzs, rfl⟩ := eachContent_cons_eq_ok.1 h
      rcases List.mem_cons.1 hm with rfl | hm
      · exact ⟨z, hz⟩
      · exact ih hzs hm

theorem eachContent_eq_error {fields : List (String × α)} {e : Error}
    (h : eachContent f fields = .error e) :
    ∃ front name x back e', fields = front ++ (name, x) :: back ∧
      (∀ field ∈ front, ∃ y, f field.2 = .ok y) ∧ f x = .error e' ∧
      e = e'.within [.name name] := by
  induction fields with
  | nil => cases h
  | cons first rest ih =>
      obtain ⟨name, x⟩ := first
      rw [eachContent] at h
      cases hx : f x with
      | error e' =>
          rw [hx] at h
          cases h
          exact ⟨[], name, x, rest, e', rfl, List.forall_mem_nil _, hx, rfl⟩
      | ok y =>
          cases hrest : eachContent f rest with
          | ok ys =>
              rw [hx, hrest] at h
              cases h
          | error e'' =>
              rw [hx, hrest] at h
              cases h
              obtain ⟨front, other, z, back, e', rfl, hfront, hz, rfl⟩ := ih hrest
              exact ⟨(name, x) :: front, other, z, back, e', rfl,
                List.forall_mem_cons.2 ⟨⟨y, hx⟩, hfront⟩, hz, rfl⟩

theorem eachContent_inverse {g : β → Except Error α} {fields : List (String × α)}
    (hg : ∀ field ∈ fields, ∀ y, f field.2 = .ok y → g y = .ok field.2) {ys : List (String × β)}
    (h : eachContent f fields = .ok ys) : eachContent g ys = .ok fields := by
  induction fields generalizing ys with
  | nil =>
      cases h
      rfl
  | cons first rest ih =>
      obtain ⟨z, zs, hz, hzs, rfl⟩ := eachContent_cons_eq_ok.1 h
      have hrest := ih (fun field hm => hg field (List.mem_cons_of_mem _ hm)) hzs
      exact eachContent_cons_eq_ok.2 ⟨first.2, rest, hg first List.mem_cons_self z hz, hrest, rfl⟩

end Contents

namespace Tree

variable {L M : Type}

mutual

def traverse (f : L → Except Fault M) : Tree L → Except Error (Tree M)
  | .leaf x => ((f x).mapError Error.root).map .leaf
  | .array items => (traverseItems f 0 items).map .array
  | .object fields => (traverseFields f fields).map .object

def traverseItems (f : L → Except Fault M) (index : Nat) :
    List (Tree L) → Except Error (List (Tree M))
  | [] => .ok []
  | x :: xs => do
    let y ← (traverse f x).mapError (Error.within [.index index])
    let ys ← traverseItems f (index + 1) xs
    return y :: ys

def traverseFields (f : L → Except Fault M) :
    List (String × Tree L) → Except Error (List (String × Tree M))
  | [] => .ok []
  | (name, x) :: rest => do
    let y ← (traverse f x).mapError (Error.within [.name name])
    let ys ← traverseFields f rest
    return (name, y) :: ys

end

variable {f : L → Except Fault M}

@[simp] theorem traverse_array (items : List (Tree L)) :
    traverse f (.array items) = (eachItem (traverse f) 0 items).map .array := by
  have hitems (index : Nat) : traverseItems f index items = eachItem (traverse f) index items := by
    induction items generalizing index with
    | nil => rfl
    | cons x xs ih => rw [traverseItems, eachItem, ih]
  rw [traverse, hitems]

@[simp] theorem traverse_object (fields : List (String × Tree L)) :
    traverse f (.object fields) = (eachContent (traverse f) fields).map .object := by
  have hfields : traverseFields f fields = eachContent (traverse f) fields := by
    induction fields with
    | nil => rfl
    | cons field rest ih =>
        obtain ⟨name, x⟩ := field
        rw [traverseFields, eachContent, ih]
  rw [traverse, hfields]

theorem traverse_leaf_eq_ok {x : L} {t : Tree M} :
    traverse f (.leaf x) = .ok t ↔ ∃ y, f x = .ok y ∧ t = .leaf y := by
  rw [traverse, map_eq_ok]
  simp only [mapError_eq_ok, eq_comm]

theorem traverse_leaf_eq_error {x : L} {e : Error} :
    traverse f (.leaf x) = .error e ↔ ∃ fault, f x = .error fault ∧ e = .root fault := by
  rw [traverse]
  cases f x <;> simp [Except.map, Except.mapError, eq_comm]

theorem distinct_traverse {t : Tree L} (hd : t.Distinct) {t' : Tree M}
    (h : traverse f t = .ok t') : t'.Distinct := by
  induction t using ind generalizing t' with
  | leaf x =>
      obtain ⟨y, -, rfl⟩ := traverse_leaf_eq_ok.1 h
      trivial
  | array items ih =>
      rw [traverse_array] at h
      obtain ⟨nodes, hnodes, rfl⟩ := map_eq_ok.1 h
      refine distinctItems_iff.2 fun y hy => ?_
      obtain ⟨x, hx, hfx⟩ := exists_of_mem_eachItem hnodes hy
      exact ih x hx (hereditary_distinct.item hd hx) hfx
  | object fields ih =>
      rw [traverse_object] at h
      obtain ⟨nodes, hnodes, rfl⟩ := map_eq_ok.1 h
      have hnames : Fields.Distinct nodes := by
        rw [Fields.Distinct, names_eachContent hnodes]
        exact hd.1
      refine ⟨hnames, distinctFields_iff.2 fun field hm => ?_⟩
      obtain ⟨x, hx, hfx⟩ := exists_of_mem_eachContent hnodes hm
      exact ih _ hx (hereditary_distinct.field hd hx) hfx

theorem traverse_inverse {g : M → Except Fault L} (hg : ∀ {x y}, f x = .ok y → g y = .ok x)
    {t : Tree L} {t' : Tree M} (h : traverse f t = .ok t') : traverse g t' = .ok t := by
  induction t using ind generalizing t' with
  | leaf x =>
      obtain ⟨y, hy, rfl⟩ := traverse_leaf_eq_ok.1 h
      exact traverse_leaf_eq_ok.2 ⟨x, hg hy, rfl⟩
  | array items ih =>
      rw [traverse_array] at h
      obtain ⟨nodes, hnodes, rfl⟩ := map_eq_ok.1 h
      rw [traverse_array, eachItem_inverse_of_mem (fun x hx y => ih x hx) hnodes 0]
      rfl
  | object fields ih =>
      rw [traverse_object] at h
      obtain ⟨nodes, hnodes, rfl⟩ := map_eq_ok.1 h
      rw [traverse_object, eachContent_inverse (fun field hm y => ih field hm) hnodes]
      rfl

end Tree

section Conversion

variable {L : Type} [Leaf L]

def leafOfScalar : Scalar → Except Fault L
  | .null => .ok Leaf.null
  | .bool b => .ok (Leaf.bool b)
  | .int i => .ok (Leaf.int i)
  | .double x => Leaf.double x
  | .string s => .ok (Leaf.string s)

def scalarOfLeaf (x : L) : Except Fault Scalar :=
  if (Leaf.kind? x).isSome then Leaf.scalar x else .ok .null

theorem ofScalar_eq_leafOfScalar (s : Scalar) :
    (ofScalar s : Except Fault (Tree L)) = (leafOfScalar s).map .leaf := by
  cases s <;> rfl

namespace Tree

theorem ofFields_eq_traverse {contents : List (String × Value)}
    (h : ∀ field ∈ contents, (ofValue field.2 : Except Error (Tree L)) =
      traverse leafOfScalar field.2) {done : List (String × Tree L)}
    (hd : (Fields.names done ++ Fields.names contents).Nodup) :
    ofFields contents (object done) =
      (eachContent (traverse leafOfScalar) contents).map fun fields => object (done ++ fields) := by
  induction contents generalizing done with
  | nil =>
      show _ = Except.ok (object (done ++ []))
      rw [List.append_nil]
      rfl
  | cons field rest ih =>
      obtain ⟨name, x⟩ := field
      rw [ofFields, eachContent, h (name, x) List.mem_cons_self]
      cases (traverse leafOfScalar x : Except Error (Tree L)) with
      | error e => rfl
      | ok y =>
          have hfresh : name ∉ Fields.names done := fun hname =>
            (List.nodup_append.1 hd).2.2 name hname name List.mem_cons_self rfl
          have hnext : (Fields.names (done ++ [(name, y)]) ++ Fields.names rest).Nodup := by
            rw [Fields.names_append, List.append_assoc]
            exact hd
          have hrest := ih (fun field hm => h field (List.mem_cons_of_mem _ hm)) hnext
          show ofFields rest (object (Fields.put name y done)) = _
          rw [Fields.put_of_notMem hfresh, hrest]
          cases (eachContent (traverse leafOfScalar) rest :
            Except Error (List (String × Tree L))) with
          | error e => rfl
          | ok fields =>
              show Except.ok (object (done ++ [(name, y)] ++ fields)) = _
              rw [List.append_assoc]
              rfl

theorem ofValue_eq_traverse {v : Value} (hd : v.Distinct) :
    (ofValue v : Except Error (Tree L)) = traverse leafOfScalar v := by
  induction v using ind with
  | leaf s =>
      rw [ofValue, traverse, ofScalar_eq_leafOfScalar]
      cases (leafOfScalar s : Except Fault L) <;> rfl
  | array items ih =>
      have hitems :
          eachItem ofValue 0 items = eachItem (traverse (leafOfScalar (L := L))) 0 items :=
        eachItem_congr (fun x hx => ih x hx (hereditary_distinct.item hd hx)) 0
      rw [ofValue, ofItems_eq_eachItem, traverse_array, hitems]
      rfl
  | object fields ih =>
      have hfresh :
          (Fields.names ([] : List (String × Tree L)) ++ Fields.names fields).Nodup := hd.1
      rw [traverse_object]
      exact ofFields_eq_traverse (fun field hm => ih field hm (hereditary_distinct.field hd hm))
        hfresh

theorem eachField_eq_eachContent {f : String → Except Error (Option Value)}
    {fields : List (String × Tree L)}
    (h : ∀ field ∈ fields, f field.1 = (traverse scalarOfLeaf field.2).map some) :
    eachField f (Fields.names fields) = eachContent (traverse scalarOfLeaf) fields := by
  induction fields with
  | nil => rfl
  | cons field rest ih =>
      obtain ⟨name, x⟩ := field
      rw [Fields.names_cons, eachField, eachContent, h (name, x) List.mem_cons_self,
        ih fun other hm => h other (List.mem_cons_of_mem _ hm)]
      cases traverse scalarOfLeaf x <;> rfl

theorem toValue_eq_traverse {t : Tree L} (hd : t.Distinct) :
    toValue t = traverse scalarOfLeaf t := by
  induction t using ind with
  | leaf x =>
      rw [traverse, scalarOfLeaf]
      have hkind := kind_leaf x
      cases hx : Leaf.kind? x with
      | none =>
          rw [hx] at hkind
          rw [Backend.toValue_of_null hkind]
          rfl
      | some kind =>
          rw [hx] at hkind
          rw [Backend.toValue_of_scalar hkind]
          show (scalar (leaf x) kind).mapError Error.root = _
          rw [scalar, hx]
          simp only [Option.isSome_some, if_true]
          cases Leaf.scalar x <;> rfl
  | array items ih =>
      have hitems := eachItem_congr (fun x hx => ih x hx (hereditary_distinct.item hd hx)) 0
      rw [Backend.toValue_of_array rfl rfl, traverse_array, hitems]
  | object fields ih =>
      have hread : ∀ field ∈ fields, Backend.fieldValue (object fields) field.1 =
          (traverse scalarOfLeaf field.2).map some := by
        intro field hm
        rw [fieldValue_object, Fields.lookup_of_mem hd.1 hm]
        exact congrArg (Except.map some) (ih field hm (hereditary_distinct.field hd hm))
      rw [Backend.toValue_of_object rfl, traverse_object, ← eachField_eq_eachContent hread]
      rfl

end Tree

end Conversion

end DataTree
