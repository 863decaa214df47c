import DataTree.Proofs.Naming
import DataTree.Proofs.Xml.Refusal

namespace DataTree

/-- A letter, and behind it letters, digits and underscores. -/
def isIdentifier (key : String) : Bool :=
  match key.toList with
  | [] => false
  | c :: cs => c.isAlpha && cs.all fun d => d.isAlphanum || d == '_'

theorem isIdentifier_cons {key : String} (h : isIdentifier key = true) :
    ∃ c cs, key.toList = c :: cs ∧ c.isAlpha = true ∧
      ∀ d ∈ c :: cs, d.isAlphanum = true ∨ d = '_' := by
  rw [isIdentifier] at h
  split at h
  next => cases h
  next c cs hkey =>
    rw [Bool.and_eq_true, List.all_eq_true] at h
    have hrest : ∀ d ∈ cs, d.isAlphanum = true ∨ d = '_' := fun d hd =>
      (Bool.or_eq_true_iff.1 (h.2 d hd)).imp_right beq_iff_eq.1
    exact ⟨c, cs, hkey, h.1, List.forall_mem_cons.2
      ⟨.inl (Text.isAlphanum_of_isAlpha h.1), hrest⟩⟩

theorem isAlphanum_of_mem_words {key : String} (h : isIdentifier key = true) {w : List Char}
    (hw : w ∈ Text.words key.toList) : ∀ d ∈ w, d.isAlphanum = true := by
  obtain ⟨c, cs, hkey, -, hall⟩ := isIdentifier_cons h
  refine Text.isAlphanum_of_ascii_words (fun d hd => ?_) hw
  rcases hall d (hkey ▸ hd) with hd | rfl
  · exact Text.toNat_lt_of_isAlphanum hd
  · decide

namespace Naming

theorem exists_word_cons (policy : Naming) {c : Char} {w : List Char}
    (h : ∀ d ∈ c :: w, d.isAlphanum = true) :
    ∃ c' w', policy.word (c :: w) = c' :: w' ∧ (c.isAlpha = true → c'.isAlpha = true) ∧
      ∀ d ∈ c' :: w', d.isAlphanum = true := by
  by_cases hpolicy : policy = .identity
  · subst hpolicy
    exact ⟨c, w, rfl, id, h⟩
  · have hword := isAlphanum_word hpolicy h
    obtain ⟨first, hfirst, hform⟩ := word_cons hpolicy
    rw [hform c w h] at hword
    refine ⟨_, _, hform c w h, fun hc => ?_, hword⟩
    rcases hfirst with rfl | rfl
    · exact (Text.isAlpha_cased hc).2
    · exact (Text.isAlpha_cased hc).1

theorem word_of_mem_words (policy : Naming) {key : String} (h : isIdentifier key = true)
    {w : List Char} (hw : w ∈ Text.words key.toList) :
    policy.word w ≠ [] ∧ ∀ d ∈ policy.word w, d.isAlphanum = true := by
  have hall := isAlphanum_of_mem_words h hw
  obtain ⟨c, rest, rfl⟩ := List.exists_cons_of_ne_nil (Text.ne_nil_of_mem_words w hw)
  obtain ⟨c', rest', hword, -, hplain⟩ := policy.exists_word_cons hall
  rw [hword]
  exact ⟨List.cons_ne_nil _ _, hplain⟩

theorem applyChars_of_isAlpha {policy : Naming} (hpolicy : policy ≠ .identity) {c : Char}
    (hc : c.isAlpha = true) (cs : List Char) :
    policy.applyChars (c :: cs) = policy.joined (c :: cs) := by
  have hletter : ¬ (c == '_') = true := by
    rw [beq_iff_eq]
    rintro rfl
    cases hc
  have hfront : (c :: cs).takeWhile (· == '_') = [] := List.takeWhile_cons_of_neg hletter
  have hrest : (c :: cs).dropWhile (· == '_') = c :: cs := List.dropWhile_cons_of_neg hletter
  rw [applyChars_eq hpolicy, hfront, hrest, List.nil_append]

theorem applyChars_identifier {policy : Naming} (hpolicy : policy ≠ .identity) {key : String}
    (h : isIdentifier key = true) :
    ∃ (c : Char) (w : List Char) (forms : List (List Char)),
      policy.applyChars key.toList = c :: (w ++ forms.flatMap (policy.separator ++ ·)) ∧
      c.isAlpha = true ∧ (∀ d ∈ c :: w, d.isAlphanum = true) ∧
      (∀ form ∈ forms, form ≠ [] ∧ ∀ d ∈ form, d.isAlphanum = true) ∧
      (Text.words key.toList).length = forms.length + 1 := by
  obtain ⟨first, cs, hkey, halpha, -⟩ := isIdentifier_cons h
  obtain ⟨w, ws, hwords⟩ := Text.words_cons
    (Text.isAlphanumeric_of_isAlphanum (Text.isAlphanum_of_isAlpha halpha)) cs
  rw [← hkey] at hwords
  have hword : first :: w ∈ Text.words key.toList := hwords ▸ List.mem_cons_self
  obtain ⟨c, form, hform, hstart, hplain⟩ :=
    policy.exists_word_cons (isAlphanum_of_mem_words h hword)
  have hforms : ∀ other ∈ ws.map policy.word, other ≠ [] ∧ ∀ d ∈ other, d.isAlphanum = true := by
    intro other hother
    obtain ⟨word, hm, rfl⟩ := List.mem_map.1 hother
    exact policy.word_of_mem_words h (hwords ▸ List.mem_cons_of_mem _ hm)
  refine ⟨c, form, ws.map policy.word, ?_, hstart halpha, hplain, hforms, ?_⟩
  · rw [hkey, applyChars_of_isAlpha hpolicy halpha, joined, ← hkey, hwords, List.map_cons,
      Text.intercalate_cons, hform, List.cons_append]
  · rw [hwords, List.length_cons, List.length_map]

def Joins (policy : Naming) (key : String) : Prop :=
  policy = .title → (Text.words key.toList).length = 1

open Xml (isName isNameStart isNameChar IsSpaced)

theorem isNameChar_of_isAlphanum {c : Char} (h : c.isAlphanum = true) : isNameChar c = true := by
  simp [isNameChar, h]

theorem isNameStart_of_isAlpha {c : Char} (h : c.isAlpha = true) : isNameStart c = true := by
  simp [isNameStart, h]

theorem isName_of_toList {s : String} {c : Char} {cs : List Char} (hs : s.toList = c :: cs)
    (hc : c.isAlpha = true) (hcs : ∀ d ∈ cs, isNameChar d = true) : isName s = true := by
  rw [isName, hs]
  exact Bool.and_eq_true_iff.2 ⟨isNameStart_of_isAlpha hc, List.all_eq_true.2 hcs⟩

variable {policy : Naming} {key : String}

theorem separator_of_ne_title (hpolicy : policy ≠ .title) :
    ∀ d ∈ policy.separator, isNameChar d = true := by
  cases policy with
  | identity | upperCamel => exact List.forall_mem_nil _
  | title => exact absurd rfl hpolicy
  | snake | kebab => exact List.forall_mem_singleton.2 rfl

theorem isName_apply (h : isIdentifier key = true) (hjoins : policy.Joins key) :
    isName (policy.apply key) = true := by
  by_cases hpolicy : policy = .identity
  · subst hpolicy
    obtain ⟨c, cs, hkey, hc, hall⟩ := isIdentifier_cons h
    have hchars : (Naming.identity.apply key).toList = c :: cs := by
      rw [apply, String.toList_ofList, applyChars, hkey]
    refine isName_of_toList hchars hc fun d hd => ?_
    rcases hall d (List.mem_cons_of_mem _ hd) with hd | rfl
    · exact isNameChar_of_isAlphanum hd
    · rfl
  · obtain ⟨c, w, forms, hchars, hc, hw, hforms, hlength⟩ := applyChars_identifier hpolicy h
    have hseparated : ∀ d ∈ forms.flatMap (policy.separator ++ ·), isNameChar d = true := by
      intro d hd
      obtain ⟨form, hform, hd⟩ := List.mem_flatMap.1 hd
      rcases List.mem_append.1 hd with hseparator | hd
      · refine separator_of_ne_title (fun htitle => ?_) d hseparator
        -- a single word has no other behind it
        have hnone : forms = [] := by
          rw [← List.length_eq_zero_iff]
          have hsingle := hjoins htitle
          omega
        rw [hnone] at hform
        cases hform
      · exact isNameChar_of_isAlphanum ((hforms form hform).2 d hd)
    refine isName_of_toList ((String.toList_ofList).trans hchars) hc fun d hd => ?_
    exact (List.mem_append.1 hd).elim
      (fun hd => isNameChar_of_isAlphanum (hw d (List.mem_cons_of_mem _ hd))) (hseparated d)

theorem isSpaced_apply (h : isIdentifier key = true) (hjoins : ¬ policy.Joins key) :
    IsSpaced (policy.apply key) := by
  obtain ⟨rfl, hmany⟩ := Classical.not_imp.1 hjoins
  have htitle : Naming.title ≠ .identity := nofun
  obtain ⟨c, w, forms, hchars, hc, hw, hforms, hlength⟩ := applyChars_identifier htitle h
  obtain ⟨form, rest, rfl⟩ := List.exists_cons_of_ne_nil (l := forms) (by
    rintro rfl
    exact hmany hlength)
  obtain ⟨hform, hplain⟩ := hforms form List.mem_cons_self
  obtain ⟨d, ds, rfl⟩ := List.exists_cons_of_ne_nil hform
  refine ⟨String.ofList (c :: w), d :: ds ++ rest.flatMap (separator .title ++ ·), ?_, ?_, ?_, ?_⟩
  · rw [apply, String.toList_ofList, hchars, String.toList_ofList, List.flatMap_cons]
    rfl
  · exact isName_of_toList String.toList_ofList hc fun d hd =>
      isNameChar_of_isAlphanum (hw d (List.mem_cons_of_mem _ hd))
  · intro e he
    rcases List.mem_append.1 he with he | he
    · exact .inl (isNameChar_of_isAlphanum (hplain e he))
    · obtain ⟨other, hother, he⟩ := List.mem_flatMap.1 he
      rcases List.mem_append.1 he with he | he
      · exact .inr (List.mem_singleton.1 he)
      · exact .inl (isNameChar_of_isAlphanum
          ((hforms other (List.mem_cons_of_mem _ hother)).2 e he))
  · exact ⟨d, List.mem_cons_self, isNameChar_of_isAlphanum (hplain d List.mem_cons_self)⟩

end Naming

end DataTree
