import DataTree.Proofs.Text.Numeral
import DataTree.Text.Words
import Mathlib.Data.List.Basic

namespace DataTree.Text

theorem pieces_ne_nil (cs : List Char) : pieces cs ≠ [] := by
  cases cs with
  | nil => exact List.cons_ne_nil _ _
  | cons c cs =>
      rw [pieces]
      split
      next => split <;> exact List.cons_ne_nil _ _
      next => exact List.cons_ne_nil _ _

theorem flatten_pieces (cs : List Char) : (pieces cs).flatten = cs.filter isAlphanumeric := by
  induction cs with
  | nil => rfl
  | cons c cs ih =>
      obtain ⟨piece, more, hpieces⟩ := List.exists_cons_of_ne_nil (pieces_ne_nil cs)
      rw [hpieces] at ih
      rw [pieces, hpieces, List.filter_cons, ← ih]
      dsimp only
      split <;> rfl

theorem flatten_pieceWords (mode : WordMode) (word : List Char) {cs : List Char} (h : cs ≠ []) :
    (pieceWords mode word cs).flatten = word ++ cs := by
  fun_induction pieceWords mode word cs with
  | case1 => exact absurd rfl h
  | case2 mode word c => exact List.flatten_singleton
  | case3 mode word c next rest nextMode hcut ih =>
      rw [List.flatten_cons, ih (List.cons_ne_nil _ _)]
      simp
  | case4 mode word c next rest nextMode hcut hcapital ih =>
      rw [List.flatten_cons, ih (List.cons_ne_nil _ _)]
      rfl
  | case5 mode word c next rest nextMode hcut hcapital ih =>
      rw [ih (List.cons_ne_nil _ _)]
      simp

theorem ne_nil_of_mem_pieceWords {mode : WordMode} {word cs : List Char}
    (h : mode = .uppercase → word ≠ []) : ∀ w ∈ pieceWords mode word cs, w ≠ [] := by
  fun_induction pieceWords mode word cs with
  | case1 => exact fun _ hw => (List.not_mem_nil hw).elim
  | case2 mode word c =>
      exact List.forall_mem_singleton.2 (by simp)
  | case3 mode word c next rest nextMode hcut ih =>
      exact List.forall_mem_cons.2 ⟨by simp, ih nofun⟩
  | case4 mode word c next rest nextMode hcut hcapital ih =>
      exact List.forall_mem_cons.2 ⟨h hcapital.1, ih nofun⟩
  | case5 mode word c next rest nextMode hcut hcapital ih =>
      exact ih fun _ => by simp

theorem flatten_words (cs : List Char) : (words cs).flatten = cs.filter isAlphanumeric := by
  have hpiece (piece : List Char) : (pieceWords .boundary [] piece).flatten = piece := by
    cases piece with
    | nil => rfl
    | cons c rest => exact flatten_pieceWords _ _ (List.cons_ne_nil _ _)
  rw [words, List.flatMap, List.flatten_flatten, List.map_map, ← flatten_pieces]
  simp [Function.comp_def, hpiece]

theorem ne_nil_of_mem_words {cs : List Char} : ∀ w ∈ words cs, w ≠ [] := by
  intro w hw
  obtain ⟨piece, -, hpiece⟩ := List.mem_flatMap.1 hw
  have hboundary : WordMode.boundary = .uppercase → ([] : List Char) ≠ [] := nofun
  exact ne_nil_of_mem_pieceWords hboundary w hpiece

theorem mem_of_mem_words {cs w : List Char} (hw : w ∈ words cs) :
    ∀ c ∈ w, c ∈ cs ∧ isAlphanumeric c = true := by
  intro c hc
  have hmem : c ∈ (words cs).flatten := List.mem_flatten.2 ⟨w, hw, hc⟩
  rw [flatten_words] at hmem
  exact List.mem_filter.1 hmem

theorem words_cons {c : Char} (hc : isAlphanumeric c = true) (cs : List Char) :
    ∃ w ws, words (c :: cs) = (c :: w) :: ws := by
  have hall := flatten_words (c :: cs)
  rw [List.filter_cons_of_pos hc] at hall
  cases hwords : words (c :: cs) with
  | nil =>
      rw [hwords] at hall
      cases hall
  | cons first ws =>
      have hfirst : first ≠ [] := ne_nil_of_mem_words first (hwords ▸ List.mem_cons_self)
      obtain ⟨d, w, rfl⟩ := List.exists_cons_of_ne_nil hfirst
      rw [hwords] at hall
      obtain rfl : d = c := (List.cons.inj hall).1
      exact ⟨w, ws, rfl⟩

section Joined

variable {w : List Char} {x : Char}

/-- A word that is cut nowhere: letters and digits, none of them a capital but the first. -/
structure Whole (w : List Char) : Prop where
  nonempty : w ≠ []
  alphanumeric : ∀ c ∈ w, isAlphanumeric c = true
  tail : ∀ c ∈ w.tail, isUppercase c = false

theorem pieceWords_eq_singleton {mode : WordMode} {word cs : List Char} {c : Char}
    (hc : mode = .uppercase → isUppercase c = false) (hcs : ∀ d ∈ cs, isUppercase d = false) :
    pieceWords mode word (c :: cs) = [word ++ c :: cs] := by
  induction cs generalizing mode word c with
  | nil => rfl
  | cons next rest ih =>
      obtain ⟨hnext, hrest⟩ := List.forall_mem_cons.1 hcs
      have hbehind : ¬ (mode.after c = .lowercase ∧ isUppercase next = true) := by
        simp [hnext]
      have hbefore : ¬ (mode = .uppercase ∧ isUppercase c = true ∧ isLowercase next = true) := by
        rintro ⟨hmode, hupper, -⟩
        exact absurd (hc hmode) (by simp [hupper])
      rw [pieceWords, if_neg hbehind, if_neg hbefore, ih (fun _ => hnext) hrest,
        List.append_assoc, List.singleton_append]

theorem Whole.pieceWords_self (h : Whole w) : pieceWords .boundary [] w = [w] := by
  obtain ⟨c, cs, rfl⟩ := List.exists_cons_of_ne_nil h.nonempty
  exact pieceWords_eq_singleton nofun h.tail

theorem pieces_append (hw : ∀ c ∈ w, isAlphanumeric c = true) {cs piece : List Char}
    {more : List (List Char)} (h : pieces cs = piece :: more) :
    pieces (w ++ cs) = (w ++ piece) :: more := by
  induction w with
  | nil => exact h
  | cons c w ih =>
      obtain ⟨hc, hw⟩ := List.forall_mem_cons.1 hw
      rw [List.cons_append, pieces, ih hw]
      exact if_pos hc

theorem Whole.words_self (h : Whole w) : words w = [w] := by
  have hnil : pieces [] = [] :: [] := rfl
  have hpieces := pieces_append h.alphanumeric hnil
  rw [List.append_nil] at hpieces
  rw [words, hpieces, List.flatMap_singleton, h.pieceWords_self]

theorem Whole.words_append (h : Whole w) (hx : isAlphanumeric x = false) (cs : List Char) :
    words (w ++ x :: cs) = w :: words cs := by
  have hcut : pieces (x :: cs) = [] :: pieces cs := by
    obtain ⟨piece, more, hpieces⟩ := List.exists_cons_of_ne_nil (pieces_ne_nil cs)
    rw [pieces, hpieces]
    exact if_neg (by simp [hx])
  rw [words, pieces_append h.alphanumeric hcut, List.append_nil, List.flatMap_cons,
    h.pieceWords_self]
  rfl

theorem words_intercalate (hx : isAlphanumeric x = false) {ws : List (List Char)}
    (hws : ∀ w ∈ ws, Whole w) : words ([x].intercalate ws) = ws := by
  induction ws with
  | nil => rfl
  | cons w ws ih =>
      obtain ⟨hw, hws⟩ := List.forall_mem_cons.1 hws
      cases ws with
      | nil => rw [List.intercalate_singleton, hw.words_self]
      | cons next ws =>
          rw [List.intercalate_cons_cons, List.append_assoc, List.singleton_append,
            hw.words_append hx, ih hws]

end Joined

theorem ascii_forall {p : Char → Prop} (h : ∀ n < 128, p (Char.ofNat n)) {c : Char}
    (hc : c.toNat < 128) : p c :=
  Char.ofNat_toNat c ▸ h c.toNat hc

theorem toNat_lt_of_isAlphanum {c : Char} (h : c.isAlphanum = true) : c.toNat < 128 := by
  have hcases : (c.isUpper = true ∨ c.isLower = true) ∨ c.isDigit = true :=
    (Bool.or_eq_true_iff.1 h).imp_left Bool.or_eq_true_iff.1
  rcases hcases with (hupper | hlower) | hdigit
  · have hle : c.toNat ≤ 'Z'.toNat := (of_decide_eq_true hupper).2
    exact Nat.lt_of_le_of_lt hle (by decide)
  · have hle : c.toNat ≤ 'z'.toNat := of_decide_eq_true (Bool.and_eq_true_iff.1 hlower).2
    exact Nat.lt_of_le_of_lt hle (by decide)
  · exact Nat.lt_of_le_of_lt (isDigit_bounds hdigit).2 (by decide)

theorem isAlphanum_of_isAlpha {c : Char} (h : c.isAlpha = true) : c.isAlphanum = true :=
  Bool.or_eq_true_iff.2 (.inl h)

theorem isAlphanumeric_of_isAlphanum {c : Char} (h : c.isAlphanum = true) :
    isAlphanumeric c = true :=
  (if_pos (toNat_lt_of_isAlphanum h)).trans h

theorem isAlphanum_of_ascii_words {cs w : List Char} (h : ∀ c ∈ cs, c.toNat < 128)
    (hw : w ∈ words cs) : ∀ c ∈ w, c.isAlphanum = true := by
  intro c hc
  obtain ⟨hmem, halphanumeric⟩ := mem_of_mem_words hw c hc
  exact (if_pos (h c hmem)).symm.trans halphanumeric

theorem isAlpha_cased {c : Char} (h : c.isAlpha = true) :
    c.toLower.isAlpha = true ∧ c.toUpper.isAlpha = true := by
  have hascii : c.toNat < 128 := toNat_lt_of_isAlphanum (isAlphanum_of_isAlpha h)
  revert h
  exact @ascii_forall (fun c => c.isAlpha = true → c.toLower.isAlpha = true ∧
    c.toUpper.isAlpha = true) (by decide +kernel) c hascii

theorem isAlphanum_cased {c : Char} (h : c.isAlphanum = true) :
    c.toLower.isAlphanum = true ∧ c.toUpper.isAlphanum = true := by
  have hascii := toNat_lt_of_isAlphanum h
  revert h
  exact @ascii_forall (fun c => c.isAlphanum = true → c.toLower.isAlphanum = true ∧
    c.toUpper.isAlphanum = true) (by decide +kernel) c hascii

theorem lowered_ascii {cs : List Char} (h : ∀ c ∈ cs, c.toNat < 128) :
    lowered cs = cs.map Char.toLower := by
  induction cs with
  | nil => rfl
  | cons c cs ih =>
      obtain ⟨hc, hcs⟩ := List.forall_mem_cons.1 h
      have hlower : toLowercase c = [c.toLower] := if_pos hc
      rw [lowered, hlower, ih hcs]
      · rfl
      · rintro rfl
        exact absurd hc (by decide)

theorem capitalized_ascii {c : Char} {cs : List Char} (h : ∀ d ∈ c :: cs, d.toNat < 128) :
    capitalized (c :: cs) = c.toUpper :: cs.map Char.toLower := by
  obtain ⟨hc, hcs⟩ := List.forall_mem_cons.1 h
  have hupper : toUppercase c = [c.toUpper] := if_pos hc
  rw [capitalized, hupper, lowered_ascii hcs]
  rfl

theorem intercalate_cons {α : Type} (separator first : List α) (rest : List (List α)) :
    separator.intercalate (first :: rest) = first ++ rest.flatMap (separator ++ ·) := by
  induction rest generalizing first with
  | nil => rw [List.intercalate_singleton, List.flatMap_nil, List.append_nil]
  | cons next rest ih =>
      rw [List.intercalate_cons_cons, ih, List.flatMap_cons, List.append_assoc, List.append_assoc]

end DataTree.Text
