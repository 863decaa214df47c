import DataTree.Decimal.Layout
import DataTree.Decimal.Text
import DataTree.Proofs.Binary.Number
import DataTree.Proofs.Decimal.Shortest
import DataTree.Proofs.Text.Numeral
import DataTree.Proofs.Text.Span

namespace DataTree

open Text (takeWhile_run dropWhile_run)

namespace Decimal

theorem isDigit_iff {c : Char} : isDigit c = true ↔ c.isDigit = true := by
  rw [isDigit, Char.isDigit, Bool.and_eq_true, Bool.and_eq_true, decide_eq_true_iff,
    decide_eq_true_iff, decide_eq_true_iff, decide_eq_true_iff]
  rfl

theorem ofDigits_eq (cs : List Char) : ofDigits cs = Nat.ofDigitChars 10 cs 0 := rfl

theorem isDigit_all {cs : List Char} (h : ∀ c ∈ cs, c.isDigit = true) :
    cs.takeWhile isDigit = cs ∧ cs.dropWhile isDigit = [] := by
  have hall : ∀ c ∈ cs, isDigit c = true := fun c hc => isDigit_iff.2 (h c hc)
  exact ⟨List.takeWhile_eq_self_iff.2 hall, List.dropWhile_eq_nil_iff.2 hall⟩

theorem ofChars?_digits {cs : List Char} (hne : cs ≠ []) (h : ∀ c ∈ cs, c.isDigit = true) :
    ofChars? cs = some ⟨ofDigits cs, 0⟩ := by
  obtain ⟨htake, hdrop⟩ := isDigit_all h
  unfold ofChars?
  rw [htake, hdrop]
  dsimp only
  rw [if_neg (by simp [hne]), List.append_nil]
  rfl

theorem ofChars?_point {whole fraction : List Char} (hne : whole ≠ [])
    (hw : ∀ c ∈ whole, c.isDigit = true) (hf : ∀ c ∈ fraction, c.isDigit = true) :
    ofChars? (whole ++ '.' :: fraction) =
      some ⟨ofDigits (whole ++ fraction), -fraction.length⟩ := by
  have hw' : ∀ c ∈ whole, isDigit c = true := fun c hc => isDigit_iff.2 (hw c hc)
  have hdrop : (whole ++ '.' :: fraction).dropWhile isDigit = '.' :: fraction :=
    dropWhile_run hw' (by decide)
  have htake : (whole ++ '.' :: fraction).takeWhile isDigit = whole :=
    takeWhile_run hw' (by decide)
  obtain ⟨htakeFraction, hdropFraction⟩ := isDigit_all hf
  unfold ofChars?
  rw [hdrop, htake]
  simp [htakeFraction, hdropFraction, hne, exponent?]

end Decimal

namespace Layout

theorem isDigit_zeros (n : Nat) : ∀ c ∈ zeros n, c.isDigit = true := by
  intro c hc
  rw [(List.mem_replicate.1 hc).2]
  rfl

theorem isDigit_toDigits (n : Nat) : ∀ c ∈ Nat.toDigits 10 n, c.isDigit = true := fun _ hc =>
  Nat.isDigit_of_mem_toDigits (by decide) (by decide) hc

theorem ofDigits_zeros_append (n : Nat) (cs : List Char) :
    Decimal.ofDigits ('0' :: (zeros n ++ cs)) = Decimal.ofDigits cs := by
  rw [Decimal.ofDigits_eq, Nat.ofDigitChars_cons, Nat.ofDigitChars_append, zeros,
    Nat.ofDigitChars_replicate_zero]
  rfl

theorem ofDigits_append_zeros (cs : List Char) (n : Nat) :
    Decimal.ofDigits (cs ++ zeros n) = 10 ^ n * Decimal.ofDigits cs := by
  rw [Decimal.ofDigits_eq, Nat.ofDigitChars_append, zeros, Nat.ofDigitChars_replicate_zero]
  rfl

theorem ofChars?_withPoint (d : Decimal) : ∃ d',
    Decimal.ofChars? (plain.withPoint (Nat.toDigits 10 d.digits) d.leading) = some d' ∧
      d'.value = d.value := by
  have hlength : (Nat.toDigits 10 d.digits).length = decimalLength d.digits := rfl
  have hlengthPos : 0 < decimalLength d.digits := Nat.length_toDigits_pos
  have hdigits := isDigit_toDigits d.digits
  have hvalue : Decimal.ofDigits (Nat.toDigits 10 d.digits) = d.digits :=
    Nat.ofDigitChars_ten_toDigits
  have hleading : d.leading = d.exponent + decimalLength d.digits - 1 := by
    rw [Decimal.leading]
    omega
  rw [withPoint]
  split
  next hneg =>
    have hfraction : ∀ c ∈ zeros (-d.leading - 1).toNat ++ Nat.toDigits 10 d.digits,
        c.isDigit = true := fun c hc =>
      (List.mem_append.1 hc).elim (isDigit_zeros _ c) (hdigits c)
    have hexponent : -((zeros (-d.leading - 1).toNat ++ Nat.toDigits 10 d.digits).length : Int) =
        d.exponent := by
      rw [List.length_append, zeros, List.length_replicate, hlength]
      omega
    have hwhole : ∀ c ∈ ['0'], c.isDigit = true := List.all_eq_true.1 rfl
    refine ⟨_, Decimal.ofChars?_point (List.cons_ne_nil _ _) hwhole hfraction, ?_⟩
    rw [List.singleton_append, ofDigits_zeros_append, hvalue, hexponent]
  next hpos =>
    dsimp only
    split
    next hle =>
      have hpow : (10 : ℚ) ^ d.exponent = 10 ^ d.exponent.toNat := by
        rw [ten_zpow_eq, show (-d.exponent).toNat = 0 by omega, pow_zero, div_one]
      have hzeros : d.leading.toNat + 1 - (Nat.toDigits 10 d.digits).length = d.exponent.toNat := by
        omega
      have hall : ∀ c ∈ Nat.toDigits 10 d.digits ++ zeros d.exponent.toNat, c.isDigit = true :=
        fun c hc => (List.mem_append.1 hc).elim (hdigits c) (isDigit_zeros _ c)
      have hne : Nat.toDigits 10 d.digits ++ zeros d.exponent.toNat ≠ [] := by
        simp [Nat.toDigits_ne_nil]
      rw [hzeros, show (if plain.pointZero then ['.', '0'] else []) = ([] : List Char) from rfl,
        List.append_nil]
      refine ⟨_, Decimal.ofChars?_digits hne hall, ?_⟩
      rw [ofDigits_append_zeros, hvalue, Decimal.value, Decimal.value, hpow]
      push_cast
      ring
    next hlt =>
      have hne : (Nat.toDigits 10 d.digits).take (d.leading.toNat + 1) ≠ [] := by
        simp [Nat.toDigits_ne_nil]
      have hexponent : -(((Nat.toDigits 10 d.digits).drop (d.leading.toNat + 1)).length : Int) =
          d.exponent := by
        rw [List.length_drop]
        omega
      refine ⟨_, Decimal.ofChars?_point hne (fun c hc => hdigits c (List.mem_of_mem_take hc))
        (fun c hc => hdigits c (List.mem_of_mem_drop hc)), ?_⟩
      rw [List.take_append_drop, hvalue, hexponent]

theorem withPoint_eq_cons (d : Decimal) : ∃ c cs,
    plain.withPoint (Nat.toDigits 10 d.digits) d.leading = c :: cs ∧ c.isDigit = true := by
  obtain ⟨c, cs, hcons, hc⟩ := Text.toDigits_eq_cons d.digits
  rw [withPoint, hcons]
  split
  next => exact ⟨'0', _, rfl, rfl⟩
  next =>
    dsimp only
    split
    next => exact ⟨c, _, rfl, hc⟩
    next => exact ⟨c, _, rfl, hc⟩

end Layout

namespace Decimal

variable {F : Format}

theorem toLower_of_isDigit {c : Char} (hc : c.isDigit = true) : c.toLower = c := by
  refine dif_neg fun h => ?_
  have hlow : 65 ≤ c.toNat := UInt32.le_iff_toNat_le.1 h.1
  have hhigh := (Text.isDigit_bounds hc).2
  omega

theorem word_ne {c : Char} (hc : c.isDigit = true) (cs : List Char) {d : Char}
    (hd : d.isDigit = false) (ds : List Char) :
    String.ofList ((c :: cs).map Char.toLower) ≠ String.ofList (d :: ds) := by
  intro h
  have hchars := congrArg String.toList h
  rw [String.toList_ofList, String.toList_ofList, List.map_cons, toLower_of_isDigit hc] at hchars
  obtain rfl := (List.cons.inj hchars).1
  rw [hc] at hd
  cases hd

theorem words_digit {c : Char} (hc : c.isDigit = true) (cs : List Char) (negative : Bool) :
    (if String.ofList ((c :: cs).map Char.toLower) = "nan" then some (.nan : Binary F)
      else if String.ofList ((c :: cs).map Char.toLower) = "inf" ∨
        String.ofList ((c :: cs).map Char.toLower) = "infinity" then some (.infinity negative)
      else (ofChars? (c :: cs)).map (toBinary negative)) =
        (ofChars? (c :: cs)).map (toBinary negative) := by
  rw [if_neg (word_ne hc cs (d := 'n') rfl ['a', 'n']), if_neg]
  rintro (h | h)
  · exact word_ne hc cs (d := 'i') rfl ['n', 'f'] h
  · exact word_ne hc cs (d := 'i') rfl ['n', 'f', 'i', 'n', 'i', 't', 'y'] h

theorem float?_unsigned {c : Char} (hc : c.isDigit = true) (cs : List Char) :
    (float? (c :: cs) : Option (Binary F)) = (ofChars? (c :: cs)).map (toBinary false) := by
  rw [← words_digit hc cs false]
  unfold float?
  split
  next hsplit =>
    split at hsplit
    next h =>
      cases h
      cases hc
    next h =>
      cases h
      cases hc
    next =>
      cases hsplit
      rfl

theorem float?_plus {c : Char} (hc : c.isDigit = true) (cs : List Char) :
    (float? ('+' :: c :: cs) : Option (Binary F)) = (ofChars? (c :: cs)).map (toBinary false) :=
  words_digit hc cs false

theorem float?_minus {c : Char} (hc : c.isDigit = true) (cs : List Char) :
    (float? ('-' :: c :: cs) : Option (Binary F)) = (ofChars? (c :: cs)).map (toBinary true) :=
  words_digit hc cs true

theorem float?_digit {c : Char} (hc : c.isDigit = true) (cs : List Char) (negative : Bool) :
    (float? ((if negative then ['-'] else []) ++ c :: cs) : Option (Binary F)) =
      (ofChars? (c :: cs)).map (toBinary negative) := by
  cases negative
  · exact float?_unsigned hc cs
  · exact float?_minus hc cs

theorem toBinary_whole (negative : Bool) (k : Nat) :
    ((⟨k, 0⟩ : Decimal).toBinary negative : Double) = .round negative k 1 := by
  rw [toBinary]
  split
  next hk =>
    have hk : k = 0 := hk
    rw [hk]
  next =>
    rw [if_neg, if_neg]
    · exact congrArg (Binary.round negative · 1) (Nat.mul_one k)
    · show ¬ (0 + (decimalLength k : Int) < -1074 - 1)
      omega
    · show ¬ (971 + 53 : Int) < 0
      omega

theorem float?_numeral {cs : List Char} {n : Int} (h : Text.Numeral cs n) :
    ∃ x : Double, float? cs = some x ∧ x.number? = (Binary.ofInt n : Double).number? := by
  have hdigits {c : Char} {cs : List Char} (hcs : ∀ d ∈ c :: cs, d.isDigit = true) :
      ofChars? (c :: cs) = some ⟨Nat.ofDigitChars 10 (c :: cs) 0, 0⟩ :=
    ofChars?_digits (List.cons_ne_nil c cs) hcs
  cases h with
  | @unsigned c cs hcs =>
      rw [float?_unsigned (hcs c List.mem_cons_self), hdigits hcs, Option.map_some, toBinary_whole]
      exact ⟨_, rfl, Binary.number?_round_signed false _⟩
  | @plus c cs hcs =>
      rw [float?_plus (hcs c List.mem_cons_self), hdigits hcs, Option.map_some, toBinary_whole]
      exact ⟨_, rfl, Binary.number?_round_signed false _⟩
  | @minus c cs hcs =>
      rw [float?_minus (hcs c List.mem_cons_self), hdigits hcs, Option.map_some, toBinary_whole]
      exact ⟨_, rfl, Binary.number?_round_signed true _⟩

theorem toBinary_of_value_eq (hF : F.Ample) {m : Nat} {e : Int} (hc : F.Canonical m e) {tie : Tie}
    {d : Decimal}
    (hd : d.value = value (if m = 0 then ⟨0, 0⟩ else Binary.shortest F tie m e)) (negative : Bool) :
    (d.toBinary negative : Binary F) = .finite negative m e hc := by
  have hprecision := hF.precision
  by_cases hm : m = 0
  · subst hm
    have hdigits : d.digits = 0 := by
      rw [← value_eq_zero, hd, if_pos rfl, value_eq_zero]
    rw [toBinary, if_pos hdigits]
    exact Binary.round_of_canonical (by omega) hc one_ne_zero (by simp) negative
  · have hwidth : m < 2 ^ F.precision := by
      have := hc.1
      rwa [Nat.one_shiftLeft] at this
    refine toBinary_of_holds hF hc hm ?_ negative
    rw [hd, if_neg hm]
    exact Binary.holds_shortest hprecision tie hm hwidth e

theorem float?_plain (hF : F.Ample) (x : Binary F) : float? (Layout.plain.chars x) = some x := by
  cases x with
  | nan => rfl
  | infinity negative => cases negative <;> rfl
  | finite negative m e hc =>
      obtain ⟨d, hd⟩ : ∃ d, d = if m = 0 then ⟨0, 0⟩ else Binary.shortest F .up m e := ⟨_, rfl⟩
      have hchars : Layout.plain.chars (.finite negative m e hc : Binary F) =
          (if negative then ['-'] else []) ++
            Layout.plain.withPoint (Nat.toDigits 10 d.digits) d.leading := by
        rw [hd]
        rfl
      obtain ⟨d', hread, hvalue⟩ := Layout.ofChars?_withPoint d
      obtain ⟨c, cs, hcons, hc'⟩ := Layout.withPoint_eq_cons d
      rw [hcons] at hread
      rw [hchars, hcons, float?_digit hc', hread, Option.map_some,
        toBinary_of_value_eq hF hc (hvalue.trans (congrArg value hd))]

end Decimal

end DataTree
