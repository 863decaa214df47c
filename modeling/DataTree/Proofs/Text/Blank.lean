import DataTree.Decimal.Layout
import DataTree.Proofs.Text.Numeral
import DataTree.Proofs.Text.Span
import DataTree.Text.Blank

namespace DataTree.Text

theorem trimChars_eq_self {cs : List Char} (hfirst : ∀ c ∈ cs.head?, isBlank c = false)
    (hlast : ∀ c ∈ cs.getLast?, isBlank c = false) : trimChars cs = cs := by
  have hreverse : ∀ c ∈ cs.reverse.head?, isBlank c = false := by rwa [List.head?_reverse]
  rw [trimChars, List.dropWhile_eq_self_iff.2 (head_rejected hfirst),
    List.dropWhile_eq_self_iff.2 (head_rejected hreverse), List.reverse_reverse]

theorem trimChars_append {cs blanks : List Char} (h : ∀ c ∈ blanks, isBlank c = true) :
    trimChars (cs ++ blanks) = trimChars cs := by
  have hreverse : ∀ c ∈ blanks.reverse, isBlank c = true := fun c hc =>
    h c (List.mem_reverse.1 hc)
  rw [trimChars, trimChars, List.dropWhile_append]
  split
  next hnil =>
    rw [List.dropWhile_eq_nil_iff.2 h, List.isEmpty_iff.1 hnil]
  next => rw [List.reverse_append, List.dropWhile_append_of_pos hreverse]

def Solid (cs : List Char) : Prop := ∀ c ∈ cs, isBlank c = false

theorem Solid.trimChars {cs : List Char} (h : Solid cs) : trimChars cs = cs :=
  trimChars_eq_self (fun c hc => h c (List.mem_of_mem_head? hc))
    fun c hc => h c (List.mem_of_getLast? hc)

theorem Solid.trim {s : String} (h : Solid s.toList) : Text.trim s = s := by
  rw [Text.trim, h.trimChars, String.ofList_toList]

theorem Solid.trimChars_between {front cs back : List Char} (h : Solid cs)
    (hfront : ∀ c ∈ front, isBlank c = true) (hback : ∀ c ∈ back, isBlank c = true) :
    Text.trimChars (front ++ cs ++ back) = cs := by
  rw [trimChars_append hback, Text.trimChars, List.dropWhile_append_of_pos hfront]
  exact h.trimChars

theorem Solid.append {cs ds : List Char} (hc : Solid cs) (hd : Solid ds) : Solid (cs ++ ds) := by
  intro c h
  exact (List.mem_append.1 h).elim (hc c) (hd c)

theorem Solid.cons {c : Char} {cs : List Char} (hc : isBlank c = false) (h : Solid cs) :
    Solid (c :: cs) :=
  List.forall_mem_cons.2 ⟨hc, h⟩

theorem Solid.sublist {cs ds : List Char} (hd : Solid ds) (h : cs.Sublist ds) : Solid cs :=
  fun c hc => hd c (h.subset hc)

theorem isBlank_of_isDigit {c : Char} (h : c.isDigit = true) : isBlank c = false := by
  obtain ⟨hlow, hhigh⟩ := isDigit_bounds h
  simp [isBlank, blankRanges]
  omega

theorem solid_toDigits (n : Nat) : Solid (Nat.toDigits 10 n) := fun _ hc =>
  isBlank_of_isDigit (Nat.isDigit_of_mem_toDigits (by decide) (by decide) hc)

theorem solid_toString (i : Int) : Solid (toString i).toList := by
  cases i with
  | ofNat n =>
      rw [toList_toString_ofNat]
      exact solid_toDigits n
  | negSucc n =>
      rw [toList_toString_negSucc]
      exact (solid_toDigits (n + 1)).cons (by decide)

theorem Numeral.solid {cs : List Char} {n : Int} (h : Numeral cs n) : Solid cs := by
  cases h with
  | unsigned hcs => exact fun c hc => isBlank_of_isDigit (hcs c hc)
  | plus hcs => exact Solid.cons (by decide) fun c hc => isBlank_of_isDigit (hcs c hc)
  | minus hcs => exact Solid.cons (by decide) fun c hc => isBlank_of_isDigit (hcs c hc)

theorem solid_zeros (n : Nat) : Solid (Layout.zeros n) := fun c hc => by
  rw [(List.mem_replicate.1 hc).2]
  decide

theorem solid_withPoint {digits : List Char} (h : Solid digits) (leading : Int) :
    Solid (Layout.plain.withPoint digits leading) := by
  rw [Layout.withPoint]
  split
  next => exact ((solid_zeros _).append h).cons (by decide) |>.cons (by decide)
  next =>
    dsimp only
    split
    next => exact (h.append (solid_zeros _)).append nofun
    next =>
      exact (h.sublist (List.take_sublist _ _)).append
        ((h.sublist (List.drop_sublist _ _)).cons (by decide))

theorem solid_plain {F : Format} (x : Binary F) : Solid (Layout.plain.chars x) := by
  have hsign (negative : Bool) : Solid (if negative then ['-'] else []) := by
    cases negative
    · exact nofun
    · exact Solid.cons (by decide) nofun
  cases x with
  | nan =>
      show Solid ['N', 'a', 'N']
      simp [Solid, isBlank, blankRanges]
  | infinity negative =>
      refine (hsign negative).append ?_
      simp [Solid, isBlank, blankRanges]
  | finite negative m e h => exact (hsign negative).append (solid_withPoint (solid_toDigits _) _)

end DataTree.Text
