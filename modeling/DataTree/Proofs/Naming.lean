import DataTree.Naming
import DataTree.Proofs.Text.Span
import DataTree.Proofs.Text.Words

namespace DataTree.Naming

open Text (Whole words)

variable {policy : Naming} {c : Char} {w name : List Char}

theorem cased_twice (h : c.toNat < 128) :
    c.toLower.toLower = c.toLower ∧ c.toUpper.toUpper = c.toUpper ∧
      Text.isUppercase c.toLower = false :=
  @Text.ascii_forall (fun c => c.toLower.toLower = c.toLower ∧ c.toUpper.toUpper = c.toUpper ∧
    Text.isUppercase c.toLower = false) (by decide +kernel) c h

section Word

variable (hpolicy : policy ≠ .identity)
include hpolicy

theorem word_cons : ∃ first : Char → Char, (first = Char.toUpper ∨ first = Char.toLower) ∧
    ∀ c w, (∀ d ∈ c :: w, d.isAlphanum = true) →
      policy.word (c :: w) = first c :: w.map Char.toLower := by
  have hascii {c : Char} {w : List Char} (h : ∀ d ∈ c :: w, d.isAlphanum = true) :
      ∀ d ∈ c :: w, d.toNat < 128 := fun d hd => Text.toNat_lt_of_isAlphanum (h d hd)
  cases policy with
  | identity => exact absurd rfl hpolicy
  | upperCamel | title =>
      exact ⟨Char.toUpper, .inl rfl, fun _ _ h => Text.capitalized_ascii (hascii h)⟩
  | snake | kebab =>
      exact ⟨Char.toLower, .inr rfl, fun _ _ h => Text.lowered_ascii (hascii h)⟩

theorem isAlphanum_word (hw : ∀ c ∈ w, c.isAlphanum = true) :
    ∀ c ∈ policy.word w, c.isAlphanum = true := by
  obtain ⟨first, hfirst, hform⟩ := word_cons hpolicy
  cases w with
  | nil => cases policy <;> exact List.forall_mem_nil _
  | cons c w =>
      obtain ⟨hc, hrest⟩ := List.forall_mem_cons.1 hw
      rw [hform c w hw, List.forall_mem_cons, List.forall_mem_map]
      refine ⟨?_, fun d hd => (Text.isAlphanum_cased (hrest d hd)).1⟩
      rcases hfirst with rfl | rfl
      · exact (Text.isAlphanum_cased hc).2
      · exact (Text.isAlphanum_cased hc).1

theorem whole_word (hne : w ≠ []) (hw : ∀ c ∈ w, c.isAlphanum = true) :
    Whole (policy.word w) ∧ policy.word (policy.word w) = policy.word w := by
  have hword := isAlphanum_word hpolicy hw
  obtain ⟨first, hfirst, hform⟩ := word_cons hpolicy
  obtain ⟨c, w, rfl⟩ := List.exists_cons_of_ne_nil hne
  have hascii : ∀ d ∈ c :: w, d.toNat < 128 := fun d hd => Text.toNat_lt_of_isAlphanum (hw d hd)
  have hhead : first (first c) = first c := by
    rcases hfirst with rfl | rfl
    · exact (cased_twice (hascii c List.mem_cons_self)).2.1
    · exact (cased_twice (hascii c List.mem_cons_self)).1
  have htail : (w.map Char.toLower).map Char.toLower = w.map Char.toLower := by
    rw [List.map_map]
    exact List.map_congr_left fun d hd => (cased_twice (hascii d (List.mem_cons_of_mem _ hd))).1
  rw [hform c w hw] at hword ⊢
  refine ⟨⟨List.cons_ne_nil _ _, fun d hd => Text.isAlphanumeric_of_isAlphanum (hword d hd), ?_⟩,
    ?_⟩
  · rw [List.tail_cons, List.forall_mem_map]
    exact fun d hd => (cased_twice (hascii d (List.mem_cons_of_mem _ hd))).2.2
  · rw [hform _ _ hword, hhead, htail]

theorem whole_forms (hname : ∀ c ∈ name, c.toNat < 128) :
    ∀ form ∈ (words name).map policy.word, Whole form ∧ policy.word form = form := by
  intro form hform
  obtain ⟨w, hw, rfl⟩ := List.mem_map.1 hform
  exact whole_word hpolicy (Text.ne_nil_of_mem_words w hw) (Text.isAlphanum_of_ascii_words hname hw)

theorem applyChars_eq (name : List Char) : policy.applyChars name =
    name.takeWhile (· == '_') ++ policy.joined (name.dropWhile (· == '_')) := by
  rw [applyChars]
  exact hpolicy

theorem head_joined (hname : ∀ c ∈ name, c.toNat < 128) :
    ∀ c ∈ (policy.joined name).head?, (c == '_') = false := by
  have hforms := whole_forms hpolicy hname
  rw [joined]
  cases hwords : (words name).map policy.word with
  | nil => exact nofun
  | cons form forms =>
      rw [hwords] at hforms
      have hwhole := (hforms form List.mem_cons_self).1
      obtain ⟨d, form, rfl⟩ := List.exists_cons_of_ne_nil hwhole.nonempty
      have halphanumeric := hwhole.alphanumeric d List.mem_cons_self
      rw [Text.intercalate_cons, List.cons_append, List.head?_cons]
      rintro c ⟨⟩
      rw [beq_eq_false_iff_ne]
      rintro rfl
      cases halphanumeric

end Word

/-- What stands between two words is a character that belongs to none. -/
def Separates (policy : Naming) : Prop :=
  ∃ x, policy.separator = [x] ∧ Text.isAlphanumeric x = false

theorem Separates.ne_identity (h : policy.Separates) : policy ≠ .identity := by
  rintro rfl
  obtain ⟨x, hx, -⟩ := h
  cases hx

theorem Separates.joined_twice (h : policy.Separates) (hname : ∀ c ∈ name, c.toNat < 128) :
    policy.joined (policy.joined name) = policy.joined name := by
  have hforms := whole_forms h.ne_identity hname
  obtain ⟨x, hseparator, hx⟩ := h
  have hwords : words (policy.joined name) = (words name).map policy.word := by
    rw [joined, hseparator]
    exact Text.words_intercalate hx fun form hform => (hforms form hform).1
  rw [joined, hwords, List.map_congr_left fun form hform => (hforms form hform).2, List.map_id'']
  · rfl
  · exact fun _ => rfl

theorem Separates.applyChars_stable (h : policy.Separates) (hname : ∀ c ∈ name, c.toNat < 128) :
    policy.applyChars (policy.applyChars name) = policy.applyChars name ∧
      (policy.applyChars name).takeWhile (· == '_') = name.takeWhile (· == '_') := by
  have hbody : ∀ c ∈ name.dropWhile (· == '_'), c.toNat < 128 := fun c hc =>
    hname c ((List.dropWhile_suffix _).mem hc)
  have hfront : ∀ c ∈ name.takeWhile (· == '_'), (c == '_') = true :=
    List.all_eq_true.1 List.all_takeWhile
  have happly := applyChars_eq h.ne_identity
  have hhead := head_joined h.ne_identity hbody
  have htake : (policy.applyChars name).takeWhile (· == '_') = name.takeWhile (· == '_') := by
    rw [happly, List.takeWhile_append_of_pos hfront,
      List.takeWhile_eq_nil_iff.2 (Text.head_rejected hhead), List.append_nil]
  have hdrop : (policy.applyChars name).dropWhile (· == '_') =
      policy.joined (name.dropWhile (· == '_')) := by
    rw [happly, List.dropWhile_append_of_pos hfront,
      List.dropWhile_eq_self_iff.2 (Text.head_rejected hhead)]
  refine ⟨?_, htake⟩
  rw [happly (policy.applyChars name), htake, hdrop, h.joined_twice hbody, ← happly]

/-- A name of ASCII that a policy has given is given again, and has the underscores in front that
the name had before. -/
theorem apply_stable {name : String} (hpolicy : policy ≠ .upperCamel)
    (hname : ∀ c ∈ name.toList, c.toNat < 128) :
    policy.apply (policy.apply name) = policy.apply name ∧
      (policy.apply name).toList.takeWhile (· == '_') = name.toList.takeWhile (· == '_') := by
  have hstable : policy.applyChars (policy.applyChars name.toList) = policy.applyChars name.toList ∧
      (policy.applyChars name.toList).takeWhile (· == '_') = name.toList.takeWhile (· == '_') := by
    cases policy with
    | identity => exact ⟨rfl, rfl⟩
    | upperCamel => exact absurd rfl hpolicy
    | title => exact Separates.applyChars_stable ⟨' ', rfl, rfl⟩ hname
    | snake => exact Separates.applyChars_stable ⟨'_', rfl, rfl⟩ hname
    | kebab => exact Separates.applyChars_stable ⟨'-', rfl, rfl⟩ hname
  rw [apply, apply, String.toList_ofList]
  exact ⟨congrArg String.ofList hstable.1, hstable.2⟩

/-- Capitals in a row, digits, and punctuation at both ends. -/
theorem apply_stable_title :
    Naming.title ≠ .upperCamel ∧ (∀ c ∈ "__someHTTPUrl2_of-x.".toList, c.toNat < 128) ∧
      Naming.title.apply "__someHTTPUrl2_of-x." = "__Some Http Url2 Of X" ∧
      Naming.title.apply "__Some Http Url2 Of X" = "__Some Http Url2 Of X" ∧
      "__Some Http Url2 Of X".toList.takeWhile (· == '_') =
        "__someHTTPUrl2_of-x.".toList.takeWhile (· == '_') := by
  have hpolicy : Naming.title ≠ .upperCamel := nofun
  have hascii : ("__someHTTPUrl2_of-x.".toList.all fun c => c.toNat < 128) = true := by decide
  have hname : ∀ c ∈ "__someHTTPUrl2_of-x.".toList, c.toNat < 128 := fun c hc =>
    of_decide_eq_true (List.all_eq_true.1 hascii c hc)
  have happly : Naming.title.apply "__someHTTPUrl2_of-x." = "__Some Http Url2 Of X" := by decide
  have hstable := apply_stable hpolicy hname
  rw [happly] at hstable
  exact ⟨hpolicy, hname, happly, hstable⟩

/-- Without separators, words of one letter run together. -/
example : Naming.upperCamel.apply "a_b_c" = "ABC" ∧ Naming.upperCamel.apply "ABC" = "Abc" := by
  decide

end DataTree.Naming
