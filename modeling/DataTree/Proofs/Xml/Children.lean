import DataTree.Proofs.Fields
import DataTree.Xml.Backend

namespace DataTree.Xml.Node

theorem isNamed_named (key name : String) (node : Node) :
    isNamed key (named name node) = (name == key) := by
  cases node <;> rw [named] <;> rfl

theorem isNamed_named_self (name : String) (node : Node) : isNamed name (named name node) = true :=
  (isNamed_named name name node).trans (beq_self_eq_true name)

def fieldNodes (fields : List (String × Node)) : List Node :=
  fields.map fun field => named field.1 field.2

variable {fields : List (String × Node)} {name own content : String}

@[simp] theorem fieldNodes_cons (field : String × Node) (rest : List (String × Node)) :
    fieldNodes (field :: rest) = named field.1 field.2 :: fieldNodes rest := rfl

theorem filter_fieldNodes_of_notMem (h : name ∉ Fields.names fields) :
    (fieldNodes fields).filter (isNamed name) = [] := by
  induction fields with
  | nil => rfl
  | cons field rest ih =>
      rw [Fields.names_cons, List.mem_cons, not_or] at h
      rw [fieldNodes_cons, List.filter_cons_of_neg (by simp [isNamed_named, Ne.symm h.1]), ih h.2]

theorem filter_fieldNodes (hd : Fields.Distinct fields) {node : Node}
    (h : List.lookup name fields = some node) :
    (fieldNodes fields).filter (isNamed name) = [named name node] := by
  induction fields with
  | nil => cases h
  | cons field rest ih =>
      obtain ⟨hfresh, hrest⟩ := Fields.distinct_cons.1 hd
      rw [Fields.lookup_cons] at h
      split at h
      next hk =>
        obtain rfl := Option.some.inj h
        subst hk
        rw [fieldNodes_cons, List.filter_cons_of_pos (isNamed_named_self _ _),
          filter_fieldNodes_of_notMem hfresh]
      next hk =>
        rw [fieldNodes_cons, List.filter_cons_of_neg (by simpa [isNamed_named] using hk),
          ih hrest h]

theorem filter_not_isNamed_fieldNodes (name : String) (fields : List (String × Node)) :
    (fieldNodes fields).filter (!isNamed name ·) = fieldNodes (Fields.erase name fields) := by
  induction fields with
  | nil => rfl
  | cons field rest ih =>
      obtain ⟨key, x⟩ := field
      by_cases hk : key = name
      · subst hk
        rw [fieldNodes_cons, List.filter_cons_of_neg (by simp [isNamed_named]), ih,
          Fields.erase_cons_self]
      · rw [fieldNodes_cons, List.filter_cons_of_pos (by simpa [isNamed_named] using hk), ih,
          Fields.erase_cons_of_ne hk, fieldNodes_cons]

theorem replaceNamed_fieldNodes (h : name ∈ Fields.names fields) (x : Node) :
    replaceNamed name (named name x) (fieldNodes fields) =
      fieldNodes (Fields.put name x fields) := by
  induction fields with
  | nil => cases h
  | cons field rest ih =>
      obtain ⟨key, y⟩ := field
      rw [fieldNodes_cons, replaceNamed, isNamed_named, Fields.put]
      by_cases hk : key = name
      · subst hk
        rw [if_pos rfl, if_pos (beq_self_eq_true _), fieldNodes_cons]
      · rw [if_neg hk, if_neg (by simpa using hk), fieldNodes_cons,
          ih ((List.mem_cons.1 h).resolve_left (Ne.symm hk))]

theorem place_fieldNodes (hd : Fields.Distinct fields) (name : String) (x : Node) :
    place name (named name x) (fieldNodes fields) = fieldNodes (Fields.put name x fields) := by
  induction fields with
  | nil => rfl
  | cons field rest ih =>
      obtain ⟨key, y⟩ := field
      obtain ⟨hfresh, hrest⟩ := Fields.distinct_cons.1 hd
      rw [fieldNodes_cons, place, isNamed_named, Fields.put]
      by_cases hk : key = name
      · subst hk
        rw [if_pos rfl, if_pos (beq_self_eq_true _), fieldNodes_cons,
          filter_not_isNamed_fieldNodes, Fields.erase_of_notMem hfresh]
      · rw [if_neg hk, if_neg (by simpa using hk), fieldNodes_cons, ih hrest]

theorem place_fieldNodes_of_notMem (h : name ∉ Fields.names fields) (x : Node) :
    place name (named name x) (fieldNodes fields) = fieldNodes (fields ++ [(name, x)]) := by
  induction fields with
  | nil => rfl
  | cons field rest ih =>
      rw [Fields.names_cons, List.mem_cons, not_or] at h
      rw [fieldNodes_cons, place, isNamed_named, if_neg (by simpa using Ne.symm h.1), ih h.2]
      rfl

theorem field_fieldNodes (hd : Fields.Distinct fields) (own name content : String) :
    Backend.field (element own [] (fieldNodes fields) content) name =
      .ok ((List.lookup name fields).map (named name)) := by
  show field _ _ = _
  cases hf : List.lookup name fields with
  | none =>
      rw [field, filter_fieldNodes_of_notMem (Fields.lookup_eq_none.1 hf)]
      rfl
  | some x =>
      rw [field, filter_fieldNodes hd hf]
      rfl

theorem insertField_fieldNodes (hd : Fields.Distinct fields) (own name content : String)
    (x : Node) : Backend.insertField name x (element own [] (fieldNodes fields) content) =
      .ok () (element own [] (fieldNodes (Fields.put name x fields)) content) := by
  rw [← place_fieldNodes hd]
  rfl

theorem addNames_fieldNodes {known : List String}
    (h : (known ++ Fields.names fields).Nodup) :
    addNames known (fieldNodes fields) = known ++ Fields.names fields := by
  induction fields generalizing known with
  | nil => rw [fieldNodes, List.map_nil, addNames, Fields.names, List.map_nil, List.append_nil]
  | cons field rest ih =>
      have hfresh : field.1 ∉ known := fun hm =>
        (List.nodup_append.1 h).2.2 _ hm _ List.mem_cons_self rfl
      have hassoc : known ++ [field.1] ++ Fields.names rest =
          known ++ Fields.names (field :: rest) := by
        rw [List.append_assoc]
        rfl
      have hrest := @ih (known ++ [field.1]) (hassoc ▸ h)
      have hnamed : addNames known (named field.1 field.2 :: fieldNodes rest) =
          addNames (if known.contains field.1 then known else known ++ [field.1])
            (fieldNodes rest) := by
        cases field.2 <;> rw [named, addNames]
      rw [fieldNodes_cons, hnamed, if_neg (by simpa using hfresh), hrest, hassoc]

theorem fieldNames_fieldNodes (hd : Fields.Distinct fields) (own content : String) :
    Backend.fieldNames (element own [] (fieldNodes fields) content) = Fields.names fields :=
  @addNames_fieldNodes fields [] hd

theorem kind_fieldNodes (own : String) (hne : fields ≠ []) (content : String) :
    Backend.kind (element own [] (fieldNodes fields) content) = .object := by
  obtain ⟨field, rest, rfl⟩ := List.exists_cons_of_ne_nil hne
  rfl

end DataTree.Xml.Node
