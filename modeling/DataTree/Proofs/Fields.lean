import DataTree.Fields
import Mathlib.Data.List.Induction

namespace DataTree.Fields

variable {α β : Type}

instance (fields : List (String × α)) : Decidable (Distinct fields) :=
  inferInstanceAs (Decidable (names fields).Nodup)

/-- A field stands in the place of the old one of its name, or behind all others if there was
none. Every other field stays where it was. -/
def Stored (name : String) (x : α) (before after : List (String × α)) : Prop :=
  (∃ front old back, name ∉ names front ∧ before = front ++ (name, old) :: back ∧
    after = front ++ (name, x) :: back) ∨
  (name ∉ names before ∧ after = before ++ [(name, x)])

/-- The field of the name is taken out, if there was one. Every other field stays where it was. -/
def Dropped (name : String) (before after : List (String × α)) : Prop :=
  name ∉ names after ∧ (after = before ∨
    ∃ front x back, before = front ++ (name, x) :: back ∧ after = front ++ back)

/-- Old fields in their order, with the new values where there are some, followed by the fields
that only the new ones have. -/
def overlay (news fields : List (String × α)) : List (String × α) :=
  fields.map (fun field => (field.1, (List.lookup field.1 news).getD field.2)) ++
    news.filter (·.1 ∉ names fields)

@[simp] theorem names_cons (field : String × α) (rest : List (String × α)) :
    names (field :: rest) = field.1 :: names rest := rfl

@[simp] theorem names_nil : names ([] : List (String × α)) = [] := rfl

@[simp] theorem names_append (xs ys : List (String × α)) :
    names (xs ++ ys) = names xs ++ names ys := List.map_append

@[simp] theorem distinct_nil : Distinct ([] : List (String × α)) := List.nodup_nil

theorem distinct_cons {field : String × α} {rest : List (String × α)} :
    Distinct (field :: rest) ↔ field.1 ∉ names rest ∧ Distinct rest := List.nodup_cons

theorem lookup_cons (name : String) (field : String × α) (rest : List (String × α)) :
    List.lookup name (field :: rest) =
      if field.1 = name then some field.2 else List.lookup name rest := by
  obtain ⟨key, x⟩ := field
  rw [List.lookup_cons]
  by_cases h : key = name
  · simp [h]
  · simp [h, beq_eq_false_iff_ne.2 (Ne.symm h)]

theorem lookup_cons_of_ne {name key : String} (h : key ≠ name) (x : α)
    (rest : List (String × α)) : List.lookup name ((key, x) :: rest) = List.lookup name rest :=
  (lookup_cons name (key, x) rest).trans (if_neg h)

theorem lookup_eq_none {name : String} {fields : List (String × α)} :
    List.lookup name fields = none ↔ name ∉ names fields := by
  rw [List.lookup_eq_none_iff]
  simp only [names, List.mem_map, not_exists, not_and, bne_iff_ne, ne_comm (a := name)]

theorem mem_of_lookup {name : String} {x : α} {fields : List (String × α)}
    (h : List.lookup name fields = some x) : (name, x) ∈ fields := by
  obtain ⟨front, back, rfl, -⟩ := List.lookup_eq_some_iff.1 h
  simp

theorem mem_names_of_lookup {name : String} {x : α} {fields : List (String × α)}
    (h : List.lookup name fields = some x) : name ∈ names fields :=
  List.mem_map_of_mem (mem_of_lookup h)

theorem lookup_of_mem {name : String} {x : α} {fields : List (String × α)} (hd : Distinct fields)
    (h : (name, x) ∈ fields) : List.lookup name fields = some x := by
  induction fields with
  | nil => cases h
  | cons field rest ih =>
      obtain ⟨hfresh, hrest⟩ := distinct_cons.1 hd
      rw [lookup_cons]
      rcases List.mem_cons.1 h with rfl | h
      · rw [if_pos rfl]
      · have hne : field.1 ≠ name := fun he => hfresh (he ▸ List.mem_map_of_mem h)
        rw [if_neg hne, ih hrest h]

theorem lookup_append_of_notMem {name : String} {xs : List (String × α)} (h : name ∉ names xs)
    (ys : List (String × α)) : List.lookup name (xs ++ ys) = List.lookup name ys := by
  rw [List.lookup_append, lookup_eq_none.2 h, Option.none_or]

theorem stored_put (name : String) (x : α) (fields : List (String × α)) :
    Stored name x fields (put name x fields) := by
  induction fields with
  | nil => exact Or.inr ⟨by simp [names], rfl⟩
  | cons field rest ih =>
      obtain ⟨key, y⟩ := field
      rw [put]
      split
      next hk => exact Or.inl ⟨[], y, rest, by simp [names], by rw [hk]; rfl, by rw [hk]; rfl⟩
      next hk =>
        rcases ih with ⟨front, old, back, hf, hb, ha⟩ | ⟨hf, ha⟩
        · refine Or.inl ⟨(key, y) :: front, old, back, ?_, by rw [hb]; rfl, by rw [ha]; rfl⟩
          simp [hf, Ne.symm hk]
        · refine Or.inr ⟨?_, by rw [ha]; rfl⟩
          simp [hf, Ne.symm hk]

theorem put_of_notMem {name : String} {fields : List (String × α)} (h : name ∉ names fields)
    (x : α) : put name x fields = fields ++ [(name, x)] := by
  rcases stored_put name x fields with ⟨front, old, back, -, rfl, -⟩ | ⟨-, ha⟩
  · simp at h
  · exact ha

@[simp] theorem lookup_put_self (name : String) (x : α) (fields : List (String × α)) :
    List.lookup name (put name x fields) = some x := by
  rcases stored_put name x fields with ⟨front, old, back, hf, hb, ha⟩ | ⟨hf, ha⟩
  · rw [ha, lookup_append_of_notMem hf, lookup_cons, if_pos rfl]
  · rw [ha, lookup_append_of_notMem hf, lookup_cons, if_pos rfl]

@[simp] theorem lookup_put_of_ne {name key : String} (h : key ≠ name) (x : α)
    (fields : List (String × α)) :
    List.lookup key (put name x fields) = List.lookup key fields := by
  induction fields with
  | nil => rw [put, lookup_cons, if_neg (Ne.symm h)]
  | cons field rest ih =>
      obtain ⟨first, y⟩ := field
      rw [put]
      split
      next hf => rw [lookup_cons, lookup_cons, if_neg (hf ▸ Ne.symm h), if_neg (hf ▸ Ne.symm h)]
      next hf => rw [lookup_cons, lookup_cons, ih]

theorem put_of_lookup {name : String} {x : α} {fields : List (String × α)}
    (h : List.lookup name fields = some x) : put name x fields = fields := by
  induction fields with
  | nil => cases h
  | cons field rest ih =>
      rw [lookup_cons] at h
      rw [put]
      split at h
      next hk => rw [if_pos hk, ← Option.some.inj h]
      next hk => rw [if_neg hk, ih h]

theorem put_put (name : String) (x y : α) (fields : List (String × α)) :
    put name y (put name x fields) = put name y fields := by
  induction fields with
  | nil => rw [put, put, put, if_pos rfl]
  | cons field rest ih =>
      obtain ⟨key, z⟩ := field
      by_cases h : key = name
      · rw [put, put, if_pos h, if_pos h, put, if_pos h]
      · rw [put, put, if_neg h, if_neg h, put, if_neg h, ih]

theorem put_comm {name key : String} (h : key ≠ name) (x y : α) {fields : List (String × α)}
    (hm : name ∈ names fields) :
    put name x (put key y fields) = put key y (put name x fields) := by
  induction fields with
  | nil => cases hm
  | cons field rest ih =>
      obtain ⟨first, z⟩ := field
      by_cases hname : first = name
      · subst hname
        rw [put, put, if_neg (Ne.symm h), if_pos rfl, put, put, if_pos rfl, if_neg (Ne.symm h)]
      · have hrest : name ∈ names rest := (List.mem_cons.1 hm).resolve_left (Ne.symm hname)
        by_cases hkey : first = key
        · subst hkey
          rw [put, put, if_pos rfl, if_neg hname, put, put, if_neg hname, if_pos rfl]
        · rw [put, put, if_neg hkey, if_neg hname, put, put, if_neg hname, if_neg hkey, ih hrest]

theorem mem_put {field : String × α} {name : String} {x : α} {fields : List (String × α)}
    (h : field ∈ put name x fields) : field = (name, x) ∨ field ∈ fields := by
  rcases stored_put name x fields with ⟨front, old, back, hf, hb, ha⟩ | ⟨hf, ha⟩
  · rw [ha, List.mem_append, List.mem_cons] at h
    rw [hb, List.mem_append, List.mem_cons]
    rcases h with h | h | h
    · exact Or.inr (Or.inl h)
    · exact Or.inl h
    · exact Or.inr (Or.inr (Or.inr h))
  · rw [ha, List.mem_append, List.mem_singleton] at h
    exact h.symm

theorem distinct_erase (name : String) {fields : List (String × α)} (h : Distinct fields) :
    Distinct (erase name fields) :=
  List.Nodup.sublist (List.filter_sublist.map Prod.fst) h

@[simp] theorem erase_cons_self (name : String) (x : α) (rest : List (String × α)) :
    erase name ((name, x) :: rest) = erase name rest := by
  simp [erase]

@[simp] theorem erase_cons_of_ne {name : String} {field : String × α} (h : field.1 ≠ name)
    (rest : List (String × α)) : erase name (field :: rest) = field :: erase name rest := by
  simp [erase, h]

theorem lookup_erase_of_ne {name key : String} (h : key ≠ name) (fields : List (String × α)) :
    List.lookup key (erase name fields) = List.lookup key fields := by
  induction fields with
  | nil => rfl
  | cons field rest ih =>
      by_cases hn : field.1 = name
      · obtain ⟨first, x⟩ := field
        obtain rfl : first = name := hn
        rw [erase_cons_self, lookup_cons, if_neg (Ne.symm h), ih]
      · rw [erase_cons_of_ne hn, lookup_cons, lookup_cons, ih]

theorem erase_of_notMem {name : String} {fields : List (String × α)} (h : name ∉ names fields) :
    erase name fields = fields := by
  apply List.filter_eq_self.2
  intro field hf
  have hne : field.1 ≠ name := fun he => h (he ▸ List.mem_map_of_mem hf)
  exact decide_eq_true hne

theorem notMem_names_erase (name : String) (fields : List (String × α)) :
    name ∉ names (erase name fields) := by
  simp [names, erase]

theorem mem_names_of_erase {name key : String} {fields : List (String × α)}
    (h : key ∈ names (erase name fields)) : key ∈ names fields :=
  (List.filter_sublist.map Prod.fst).subset h

theorem dropped_erase (name : String) {fields : List (String × α)} (h : Distinct fields) :
    Dropped name fields (erase name fields) := by
  refine ⟨notMem_names_erase name fields, ?_⟩
  induction fields with
  | nil => exact .inl rfl
  | cons field rest ih =>
      obtain ⟨hfresh, hrest⟩ := distinct_cons.1 h
      obtain ⟨key, x⟩ := field
      by_cases hk : key = name
      · subst hk
        rw [erase_cons_self, erase_of_notMem hfresh]
        exact .inr ⟨[], x, rest, rfl, rfl⟩
      · rw [erase_cons_of_ne hk]
        rcases ih hrest with ha | ⟨front, y, back, hb, ha⟩
        · exact .inl (by rw [ha])
        · exact .inr ⟨(key, x) :: front, y, back, by rw [hb]; rfl, by rw [ha]; rfl⟩

@[simp] theorem putAll_cons (field : String × α) (news fields : List (String × α)) :
    putAll (field :: news) fields = putAll news (put field.1 field.2 fields) := rfl

theorem lookup_putAll {name : String} {news : List (String × α)} (hn : Distinct news)
    (fields : List (String × α)) : List.lookup name (putAll news fields) =
      (List.lookup name news).or (List.lookup name fields) := by
  induction news generalizing fields with
  | nil => rfl
  | cons field news ih =>
      obtain ⟨hfresh, hrest⟩ := distinct_cons.1 hn
      rw [putAll_cons, ih hrest, lookup_cons]
      by_cases h : field.1 = name
      · rw [if_pos h, lookup_eq_none.2 (h ▸ hfresh), ← h, lookup_put_self]
        rfl
      · rw [if_neg h, lookup_put_of_ne (Ne.symm h)]

theorem put_putAll_of_notMem {name : String} {news : List (String × α)} (h : name ∉ names news)
    (x : α) {fields : List (String × α)} (hm : name ∈ names fields) :
    put name x (putAll news fields) = putAll news (put name x fields) := by
  induction news generalizing fields with
  | nil => rfl
  | cons field news ih =>
      rw [names_cons, List.mem_cons, not_or] at h
      rw [putAll_cons, putAll_cons, ih h.2 (mem_names_put.2 (.inr hm)),
        put_comm (Ne.symm h.1) x field.2 hm]

theorem put_putAll {news : List (String × α)} (hn : Distinct news) (name : String) (x : α)
    (fields : List (String × α)) :
    put name x (putAll news fields) = putAll (put name x news) fields := by
  induction news generalizing fields with
  | nil => rfl
  | cons field news ih =>
      obtain ⟨hfresh, hrest⟩ := distinct_cons.1 hn
      obtain ⟨key, y⟩ := field
      by_cases h : key = name
      · subst h
        rw [putAll_cons, put_putAll_of_notMem hfresh x (mem_names_put.2 (.inl rfl)), put_put, put,
          if_pos rfl, putAll_cons]
      · rw [putAll_cons, ih hrest, put, if_neg h, putAll_cons]

theorem putAll_putAll {news : List (String × α)} (hn : Distinct news)
    (more fields : List (String × α)) :
    putAll more (putAll news fields) = putAll (putAll more news) fields := by
  induction more generalizing news with
  | nil => rfl
  | cons field more ih =>
      rw [putAll_cons, putAll_cons, put_putAll hn, ih (distinct_put _ _ hn)]

theorem putAll_of_mem {news fields : List (String × α)} (hd : Distinct fields)
    (h : ∀ field ∈ news, field ∈ fields) : putAll news fields = fields := by
  induction news with
  | nil => rfl
  | cons field news ih =>
      have hfield : List.lookup field.1 fields = some field.2 :=
        lookup_of_mem hd (h field List.mem_cons_self)
      rw [putAll_cons, put_of_lookup hfield]
      exact ih fun other hm => h other (List.mem_cons_of_mem _ hm)

theorem map_overlay_cons {name : String} {part : List (String × α)} (h : name ∉ names part) (x : α)
    (news : List (String × α)) :
    part.map (fun field => (field.1, (List.lookup field.1 ((name, x) :: news)).getD field.2)) =
      part.map (fun field => (field.1, (List.lookup field.1 news).getD field.2)) := by
  apply List.map_congr_left
  intro field hm
  have hne : name ≠ field.1 := fun he => h (he ▸ List.mem_map_of_mem hm)
  rw [lookup_cons, if_neg hne]

theorem overlay_put {name : String} {news : List (String × α)} (hn : name ∉ names news) (x : α)
    {fields : List (String × α)} (hd : Distinct fields) :
    overlay news (put name x fields) = overlay ((name, x) :: news) fields := by
  have hnone : List.lookup name news = none := lookup_eq_none.2 hn
  rcases stored_put name x fields with ⟨front, old, back, hf, rfl, ha⟩ | ⟨hf, ha⟩
  · have hback : name ∉ names back := by
      rw [Distinct, names_append] at hd
      exact (distinct_cons.1 (List.nodup_append.1 hd).2.1).1
    have hfilter (part : List (String × α)) (y : α) :
        part.filter (·.1 ∉ names (front ++ (name, y) :: back)) =
          part.filter (·.1 ∉ names (front ++ (name, old) :: back)) := by
      simp only [names_append, names_cons]
    rw [ha, overlay, overlay, hfilter news x,
      List.filter_cons_of_neg (by simp )]
    congr 1
    rw [List.map_append, List.map_cons, List.map_append, List.map_cons, map_overlay_cons hf,
      map_overlay_cons hback, lookup_cons, if_pos rfl, hnone]
    rfl
  · rw [ha, overlay, overlay, List.map_append, map_overlay_cons hf,
      List.filter_cons_of_pos (by simpa using hf), List.append_assoc]
    congr 1
    have hfilter : news.filter (·.1 ∉ names (fields ++ [(name, x)])) =
        news.filter (·.1 ∉ names fields) := by
      apply List.filter_congr
      intro field hm
      have hne : field.1 ≠ name := fun he => hn (he ▸ List.mem_map_of_mem hm)
      rw [decide_eq_decide, names_append, List.mem_append]
      simp [names, hne]
    rw [hfilter, List.map_cons, hnone]
    rfl

theorem putAll_eq_overlay {news fields : List (String × α)} (hn : Distinct news)
    (hf : Distinct fields) : putAll news fields = overlay news fields := by
  induction news generalizing fields with
  | nil => simp [putAll, overlay]
  | cons field news ih =>
      obtain ⟨hfresh, hrest⟩ := distinct_cons.1 hn
      rw [putAll_cons, ih hrest (distinct_put _ _ hf), overlay_put hfresh _ hf]

theorem ofPairs_of_distinct {fields : List (String × α)} (h : Distinct fields) :
    ofPairs fields = fields := by
  rw [ofPairs, putAll_eq_overlay h distinct_nil, overlay]
  simp [names]

section Settled

theorem names_put (name : String) (x : α) (fields : List (String × α)) :
    names (put name x fields) =
      if name ∈ names fields then names fields else names fields ++ [name] := by
  rcases stored_put name x fields with ⟨front, old, back, -, hb, ha⟩ | ⟨hf, ha⟩
  · rw [if_pos (by simp [hb]), ha, hb]
    simp
  · rw [if_neg hf, ha, names_append]
    rfl

theorem putAll_concat (news : List (String × α)) (field : String × α)
    (fields : List (String × α)) :
    putAll (news ++ [field]) fields = put field.1 field.2 (putAll news fields) := by
  rw [putAll, List.foldl_append]
  rfl

theorem distinct_ofPairs (pairs : List (String × α)) : Distinct (ofPairs pairs) := by
  induction pairs using List.reverseRecOn with
  | nil => exact distinct_nil
  | append_singleton pairs field ih =>
      rw [ofPairs, putAll_concat]
      exact distinct_put field.1 field.2 ih

theorem eq_of_lookup {xs ys : List (String × α)} (hd : Distinct xs) (hnames : names xs = names ys)
    (hfind : ∀ name, List.lookup name xs = List.lookup name ys) : xs = ys := by
  induction xs generalizing ys with
  | nil => exact (List.map_eq_nil_iff.1 hnames.symm).symm
  | cons field xs ih =>
      obtain ⟨other, ys, rfl, hname, htail⟩ := List.map_eq_cons_iff.1 hnames.symm
      have hrest : names xs = names ys := htail.symm
      obtain ⟨hfresh, hdxs⟩ := distinct_cons.1 hd
      obtain ⟨name, x⟩ := field
      obtain ⟨key, y⟩ := other
      obtain rfl : key = name := hname
      have hxy := hfind key
      rw [lookup_cons, lookup_cons, if_pos rfl, if_pos rfl] at hxy
      obtain rfl : x = y := Option.some.inj hxy
      rw [ih hdxs hrest fun other => ?_]
      by_cases hother : key = other
      · subst hother
        rw [lookup_eq_none.2 hfresh, lookup_eq_none.2 (hrest ▸ hfresh)]
      · have hboth := hfind other
        rwa [lookup_cons, lookup_cons, if_neg hother, if_neg hother] at hboth

/-- The fields that some pairs come to: every name stands where it came first, with the value that
came last. -/
structure Settles (pairs fields : List (String × α)) : Prop where
  names_eq : names fields = (names pairs).eraseDups
  lookup_eq : ∀ name, List.lookup name fields = List.lookup name pairs.reverse

theorem settles_ofPairs (pairs : List (String × α)) : Settles pairs (ofPairs pairs) := by
  induction pairs using List.reverseRecOn with
  | nil => exact ⟨rfl, fun _ => rfl⟩
  | append_singleton pairs field ih =>
      rw [ofPairs, putAll_concat]
      constructor
      · rw [← ofPairs, names_put, ih.names_eq, names_append, List.eraseDups_append]
        by_cases h : field.1 ∈ names pairs
        · rw [if_pos (List.mem_eraseDups.2 h)]
          simp [List.removeAll, h]
        · rw [if_neg (mt List.mem_eraseDups.1 h)]
          simp [List.removeAll, List.eraseDups_cons, h]
      · intro name
        rw [List.reverse_append, List.reverse_singleton, List.singleton_append, lookup_cons,
          ← ih.lookup_eq]
        by_cases h : field.1 = name
        · rw [if_pos h, ← h, lookup_put_self]
        · rw [if_neg h, lookup_put_of_ne (Ne.symm h)]
          rfl

theorem settles_iff {pairs fields : List (String × α)} :
    Settles pairs fields ↔ fields = ofPairs pairs := by
  have hpairs := settles_ofPairs pairs
  constructor
  · intro h
    exact (eq_of_lookup (distinct_ofPairs pairs) (hpairs.names_eq.trans h.names_eq.symm)
      fun name => (hpairs.lookup_eq name).trans (h.lookup_eq name).symm).symm
  · rintro rfl
    exact hpairs

example : ofPairs [("a", 1), ("b", 2), ("a", 3)] = [("a", 3), ("b", 2)] := rfl

end Settled

section Values

variable (g : α → β)

/-- The same names in the same order, each with another value. -/
def mapValues (fields : List (String × α)) : List (String × β) :=
  fields.map fun field => (field.1, g field.2)

@[simp] theorem names_mapValues (fields : List (String × α)) :
    names (mapValues g fields) = names fields := by
  simp [names, mapValues]

theorem lookup_mapValues (name : String) (fields : List (String × α)) :
    List.lookup name (mapValues g fields) = (List.lookup name fields).map g := by
  induction fields with
  | nil => rfl
  | cons field rest ih =>
      rw [mapValues, List.map_cons, lookup_cons, lookup_cons, ← mapValues, ih]
      split <;> rfl

theorem put_mapValues (name : String) (x : α) (fields : List (String × α)) :
    put name (g x) (mapValues g fields) = mapValues g (put name x fields) := by
  induction fields with
  | nil => rfl
  | cons field rest ih =>
      rw [mapValues, List.map_cons, ← mapValues, put, put]
      split
      next => rfl
      next => rw [ih]; rfl

theorem erase_mapValues (name : String) (fields : List (String × α)) :
    erase name (mapValues g fields) = mapValues g (erase name fields) := by
  simp [erase, mapValues, List.filter_map, Function.comp_def]

end Values

end DataTree.Fields
