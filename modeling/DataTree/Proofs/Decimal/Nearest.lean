import DataTree.Decimal.Shortest
import DataTree.Proofs.Decimal.Value

namespace DataTree

theorem roundHalfEven_eq {num den m : Nat} (hd : 0 < den) (hlow : 2 * (m * den) ≤ 2 * num + den)
    (hhigh : 2 * num ≤ 2 * (m * den) + den)
    (hodd : m % 2 = 1 → 2 * (m * den) < 2 * num + den ∧ 2 * num < 2 * (m * den) + den) :
    roundHalfEven num den = m := by
  have hsplit : num = num / den * den + num % den := (Nat.div_add_mod' num den).symm
  have hrest : num % den < den := Nat.mod_lt num hd
  rw [roundHalfEven]
  generalize num / den = q at hsplit ⊢
  generalize num % den = r at hsplit hrest ⊢
  have hle : m ≤ q + 1 := by
    by_contra hlt
    have := Nat.mul_le_mul_right den (show q + 2 ≤ m by omega)
    rw [Nat.add_mul] at this
    omega
  have hge : q ≤ m := by
    by_contra hlt
    have := Nat.mul_le_mul_right den (show m + 1 ≤ q by omega)
    rw [Nat.add_mul] at this
    omega
  rcases Nat.lt_or_ge q m with hlt | hle'
  · obtain rfl : m = q + 1 := by omega
    rw [Nat.add_mul, Nat.one_mul] at hlow hhigh hodd
    exact if_pos (by omega)
  · obtain rfl : m = q := by omega
    exact if_neg (by omega)

theorem shiftLeft_eq_mul (num den : Nat) (e : Int) : ∃ k : ℚ, 0 < k ∧
    ((num <<< (-e).toNat : Nat) : ℚ) = k * num ∧
    ((den <<< e.toNat : Nat) : ℚ) = k * (den * 2 ^ e) := by
  refine ⟨2 ^ (-e).toNat, by positivity, ?_, ?_⟩
  · rw [Nat.shiftLeft_eq]
    push_cast
    ring
  · rw [Nat.shiftLeft_eq, two_zpow_eq]
    push_cast
    field_simp

/-- `v` is at most half a unit of the last place from `m`, and closer where `m` is odd. -/
structure HalfUnit (m : Nat) (e : Int) (v : ℚ) : Prop where
  low : (2 * m - 1) * 2 ^ e ≤ 2 * v
  high : 2 * v ≤ (2 * m + 1) * 2 ^ e
  odd : m % 2 = 1 → (2 * m - 1) * 2 ^ e < 2 * v ∧ 2 * v < (2 * m + 1) * 2 ^ e

namespace Binary

variable {F : Format}

theorem round_eq_of_halfUnit {num den m : Nat} {e : Int} {v : ℚ} (hd : den ≠ 0)
    (hv : (num : ℚ) = den * v) (hplace : F.lastPlace num den = e) (h : HalfUnit m e v)
    (negative : Bool) :
    (round negative num den : Binary F) =
      if m = 1 <<< F.precision then ofParts negative (1 <<< (F.precision - 1)) (e + 1)
      else ofParts negative m e := by
  have hden : (0 : ℚ) < den := by exact_mod_cast Nat.pos_of_ne_zero hd
  have hpos : 0 < den <<< e.toNat := by
    rw [Nat.shiftLeft_eq]
    exact Nat.mul_pos (Nat.pos_of_ne_zero hd) (Nat.two_pow_pos _)
  have hrounded : roundHalfEven (num <<< (-e).toNat) (den <<< e.toNat) = m := by
    obtain ⟨k, hk, hnum, hunit⟩ := shiftLeft_eq_mul num den e
    -- both sides of the three bounds are the ones on `v`, times a positive number
    have hscale : 0 < k * den := mul_pos hk hden
    have hlow : 2 * ((m : ℚ) * (k * (den * 2 ^ e))) - k * (den * 2 ^ e) =
        k * den * ((2 * m - 1) * 2 ^ e) := by ring
    have hhigh : 2 * ((m : ℚ) * (k * (den * 2 ^ e))) + k * (den * 2 ^ e) =
        k * den * ((2 * m + 1) * 2 ^ e) := by ring
    have hmiddle : 2 * (k * (num : ℚ)) = k * den * (2 * v) := by rw [hv]; ring
    refine roundHalfEven_eq hpos ?_ ?_ fun hm => ⟨?_, ?_⟩
    · rw [← Nat.cast_le (α := ℚ)]
      push_cast
      rw [hnum, hunit, ← sub_le_iff_le_add, hlow, hmiddle]
      exact mul_le_mul_of_nonneg_left h.low hscale.le
    · rw [← Nat.cast_le (α := ℚ)]
      push_cast
      rw [hnum, hunit, hhigh, hmiddle]
      exact mul_le_mul_of_nonneg_left h.high hscale.le
    · rw [← Nat.cast_lt (α := ℚ)]
      push_cast
      rw [hnum, hunit, ← sub_lt_iff_lt_add, hlow, hmiddle]
      exact mul_lt_mul_of_pos_left (h.odd hm).1 hscale
    · rw [← Nat.cast_lt (α := ℚ)]
      push_cast
      rw [hnum, hunit, hhigh, hmiddle]
      exact mul_lt_mul_of_pos_left (h.odd hm).2 hscale
  rw [round]
  simp only [hplace, hrounded]

end Binary

namespace Neighbourhood

variable {F : Format} {m : Nat} {e : Int} {v : ℚ}

def Holds (n : Neighbourhood) (v : ℚ) : Prop :=
  if n.closed then n.lower * 2 ^ n.exponent ≤ v ∧ v ≤ n.upper * 2 ^ n.exponent
  else n.lower * 2 ^ n.exponent < v ∧ v < n.upper * 2 ^ n.exponent

theorem two_zpow_eq_quarters (e : Int) : (2 : ℚ) ^ e = 4 * 2 ^ (e - 2) := by
  rw [zpow_sub₀ two_ne_zero]
  norm_num
  ring

theorem halfUnit_of_holds (hm : m ≠ 0) (h : (of F m e).Holds v) : HalfUnit m e v := by
  have hquarter : (0 : ℚ) < 2 ^ (e - 2) := by positivity
  have hlower : (4 * m - 2 : ℚ) ≤ ((of F m e).lower : Nat) := by
    rw [of]
    dsimp only
    split
    · rw [Nat.cast_sub (by omega)]
      push_cast
      linarith
    · rw [Nat.cast_sub (by omega)]
      push_cast
      linarith
  have hlow : (4 * m - 2 : ℚ) * 2 ^ (e - 2) ≤ (of F m e).lower * 2 ^ (of F m e).exponent :=
    mul_le_mul_of_nonneg_right hlower hquarter.le
  have hupper : ((of F m e).upper : ℚ) * 2 ^ (of F m e).exponent = (4 * m + 2) * 2 ^ (e - 2) := by
    show ((4 * m + 2 : Nat) : ℚ) * _ = _
    push_cast
    rfl
  have hclosed : (of F m e).closed = (m % 2 == 0) := rfl
  have hleft : (2 * m - 1 : ℚ) * 2 ^ e = 2 * ((4 * m - 2) * 2 ^ (e - 2)) := by
    rw [two_zpow_eq_quarters e]
    ring
  have hright : (2 * m + 1 : ℚ) * 2 ^ e = 2 * ((4 * m + 2) * 2 ^ (e - 2)) := by
    rw [two_zpow_eq_quarters e]
    ring
  rw [Holds, hclosed, hupper] at h
  split at h
  next heven =>
    have heven : m % 2 = 0 := by simpa using heven
    exact ⟨by linarith [h.1], by linarith [h.2], fun hodd => absurd hodd (by omega)⟩
  next =>
    exact ⟨by linarith [h.1], by linarith [h.2], fun _ => ⟨by linarith [h.1], by linarith [h.2]⟩⟩

theorem low_of_holds (hm : m = 2 ^ (F.precision - 1)) (he : F.minExponent < e)
    (h : (of F m e).Holds v) : (4 * m - 1) * 2 ^ (e - 2) ≤ v := by
  have hpos : 0 < m := hm ▸ Nat.two_pow_pos _
  have hlower : (of F m e).lower = 4 * m - 1 := if_pos ⟨by rw [hm, Nat.one_shiftLeft], he⟩
  have hlow : ((of F m e).lower : ℚ) * 2 ^ (of F m e).exponent ≤ v := by
    rw [Holds] at h
    split at h
    · exact h.1
    · exact h.1.le
  rw [hlower, Nat.cast_sub (by omega)] at hlow
  push_cast at hlow
  exact hlow

end Neighbourhood

namespace Binary

variable {F : Format} {m : Nat} {e : Int} {v : ℚ}

theorem two_zpow_binade (hF : 0 < F.precision) (e : Int) :
    (2 : ℚ) ^ (F.precision - 1 + e) = (2 ^ (F.precision - 1) : Nat) * 2 ^ e := by
  rw [zpow_add₀ two_ne_zero]
  push_cast
  rw [← zpow_natCast]
  congr 2
  omega

theorem round_of_halfUnit (hc : F.Canonical m e) {num den : Nat} (hd : den ≠ 0)
    (hv : (num : ℚ) = den * v) (h : HalfUnit m e v)
    (hlow : e = F.minExponent ∨ (2 : ℚ) ^ (F.precision - 1 + e) ≤ v) (negative : Bool) :
    (round negative num den : Binary F) = .finite negative m e hc := by
  have hden : (0 : ℚ) < den := by exact_mod_cast Nat.pos_of_ne_zero hd
  have hunit : (0 : ℚ) < 2 ^ e := by positivity
  have hwidth : (m : ℚ) + 1 ≤ 2 ^ F.precision := by
    have := hc.1
    rw [Nat.one_shiftLeft] at this
    exact_mod_cast this
  have hhigh : v < 2 ^ (F.precision + e) := by
    rw [zpow_add₀ two_ne_zero, zpow_natCast]
    nlinarith [h.high]
  have hplace : F.lastPlace num den = e := by
    refine Format.lastPlace_eq_of_bounds hd hc.2.1 ?_ (hlow.imp_right fun hlow => ?_)
    · rw [hv]
      gcongr
    · rw [hv]
      gcongr
  rw [round_eq_of_halfUnit hd hv hplace h, if_neg hc.1.ne, ofParts, dif_pos hc]

/-- Below the least mantissa of full width a number is rounded in the finer places that the floats
have there, and up to the next binade. -/
theorem round_of_holds_below (hF : 0 < F.precision) (hc : F.Canonical m e)
    (hm : m = 2 ^ (F.precision - 1)) (he : F.minExponent < e) {num den : Nat} (hd : den ≠ 0)
    (hv : (num : ℚ) = den * v) (h : (Neighbourhood.of F m e).Holds v) (hbelow : v < m * 2 ^ e)
    (negative : Bool) : (round negative num den : Binary F) = .finite negative m e hc := by
  have hden : (0 : ℚ) < den := by exact_mod_cast Nat.pos_of_ne_zero hd
  have hlow := Neighbourhood.low_of_holds hm he h
  have hbinade : (2 : ℚ) ^ (F.precision - 1 + e) = m * 2 ^ e := by rw [two_zpow_binade hF, hm]
  have hone : (1 : ℚ) ≤ m := by exact_mod_cast hm ▸ Nat.one_le_two_pow
  have hquarters := Neighbourhood.two_zpow_eq_quarters e
  have hdouble : (2 : ℚ) ^ (e - 1) = 2 * 2 ^ (e - 2) := by
    rw [← zpow_one_add₀ two_ne_zero]
    congr 1
    omega
  have hplace : F.lastPlace num den = e - 1 := by
    refine Format.lastPlace_eq_of_bounds hd (by omega) ?_ (.inr ?_)
    · have hnext : (F.precision : Int) + (e - 1) = F.precision - 1 + e := by omega
      rw [hnext, hbinade, hv]
      gcongr
    · have hprevious : (F.precision : Int) - 1 + (e - 1) = F.precision - 1 + e - 1 := by omega
      have hquarter : (0 : ℚ) < 2 ^ (e - 2) := by positivity
      rw [hprevious, zpow_sub_one₀ two_ne_zero, hbinade, hv, hquarters]
      gcongr
      nlinarith
  have hhalf : HalfUnit (2 * m) (e - 1) v := by
    refine ⟨?_, ?_, fun hodd => absurd hodd (by omega)⟩
    · push_cast
      rw [hdouble]
      linarith
    · push_cast
      rw [hdouble]
      nlinarith
  have htop : 2 * m = 1 <<< F.precision := by
    rw [hm, Nat.one_shiftLeft, ← Nat.pow_succ']
    congr 1
    omega
  rw [round_eq_of_halfUnit hd hv hplace hhalf, if_pos htop, Nat.one_shiftLeft, ← hm,
    Int.sub_add_cancel, ofParts, dif_pos hc]

theorem round_of_holds (hF : 0 < F.precision) (hc : F.Canonical m e) (hm : m ≠ 0) {num den : Nat}
    (hd : den ≠ 0) (hv : (num : ℚ) = den * v) (h : (Neighbourhood.of F m e).Holds v)
    (negative : Bool) : (round negative num den : Binary F) = .finite negative m e hc := by
  have hhalf := Neighbourhood.halfUnit_of_holds hm h
  by_cases hlow : e = F.minExponent ∨ (2 : ℚ) ^ (F.precision - 1 + e) ≤ v
  · exact round_of_halfUnit hc hd hv hhalf hlow negative
  · rw [not_or, not_le, two_zpow_binade hF] at hlow
    obtain ⟨hne, hbelow⟩ := hlow
    have hfull : 2 ^ (F.precision - 1) ≤ m := by
      have := hc.2.2.2.resolve_left hne
      rwa [Nat.one_shiftLeft] at this
    have hm' : m = 2 ^ (F.precision - 1) := by
      refine le_antisymm (not_lt.1 fun hlt => ?_) hfull
      have hcast : ((2 ^ (F.precision - 1) : Nat) : ℚ) + 1 ≤ m := by exact_mod_cast hlt
      have hunit : (0 : ℚ) < 2 ^ e := by positivity
      nlinarith [hhalf.low]
    rw [← hm'] at hbelow
    exact round_of_holds_below hF hc hm' (lt_of_le_of_ne hc.2.1 (Ne.symm hne)) hd hv h hbelow
      negative

end Binary

/-- Formats for which the exponent of a decimal tells when it is beyond all floats. -/
structure Format.Ample (F : Format) : Prop where
  precision : 2 ≤ F.precision
  minExponent : F.minExponent ≤ 1
  maxExponent : 0 ≤ F.maxExponent + F.precision

theorem Format.ample_double : Format.Ample .double := ⟨by decide, by decide, by decide⟩

theorem Neighbourhood.bounds_of_holds {F : Format} {m : Nat} {e : Int} {v : ℚ}
    (hc : F.Canonical m e) (hm : m ≠ 0) (h : (Neighbourhood.of F m e).Holds v) :
    2 ^ (F.minExponent - 1) ≤ v ∧ v < 2 ^ (F.maxExponent + F.precision) := by
  have hhalf := halfUnit_of_holds hm h
  have hone : (1 : ℚ) ≤ m := by exact_mod_cast Nat.one_le_iff_ne_zero.2 hm
  have hwidth : (m : ℚ) + 1 ≤ 2 ^ F.precision := by
    have := hc.1
    rw [Nat.one_shiftLeft] at this
    exact_mod_cast this
  have hunit : (0 : ℚ) < 2 ^ e := by positivity
  constructor
  · calc (2 : ℚ) ^ (F.minExponent - 1)
      _ ≤ 2 ^ (e - 1) := by
        gcongr
        · norm_num
        · exact hc.2.1
      _ = 2 ^ e * 2⁻¹ := zpow_sub_one₀ two_ne_zero e
      _ ≤ v := by nlinarith [hhalf.low]
  · calc v
      _ < 2 ^ F.precision * 2 ^ e := by nlinarith [hhalf.high]
      _ = 2 ^ (e + F.precision) := by rw [zpow_add₀ two_ne_zero, zpow_natCast, mul_comm]
      _ ≤ 2 ^ (F.maxExponent + F.precision) := by
        gcongr
        · norm_num
        · exact hc.2.2.1

namespace Decimal

theorem exponent_le_of_value_lt {d : Decimal} (hd : d.digits ≠ 0) {k : Int} (hk : 0 ≤ k)
    (h : d.value < 2 ^ k) : d.exponent ≤ k := by
  by_contra hlt
  rw [not_le] at hlt
  have hpow : (2 : ℚ) ^ k ≤ 10 ^ d.exponent := calc
    (2 : ℚ) ^ k ≤ 2 ^ d.exponent := by
      gcongr
      norm_num
    _ ≤ 10 ^ d.exponent := zpow_le_zpow_left₀ (hk.trans hlt.le) (by norm_num) (by norm_num)
  linarith [le_value hd]

theorem le_of_le_value {d : Decimal} {k : Int} (hk : k ≤ 0) (h : (2 : ℚ) ^ k ≤ d.value) :
    k ≤ d.exponent + decimalLength d.digits := by
  by_contra hlt
  rw [not_le] at hlt
  obtain ⟨n, hn⟩ := Int.exists_eq_neg_ofNat (hlt.le.trans hk)
  have hpow : (10 : ℚ) ^ (d.exponent + decimalLength d.digits) ≤ 2 ^ k := calc
    (10 : ℚ) ^ (d.exponent + decimalLength d.digits) ≤
        2 ^ (d.exponent + decimalLength d.digits) := by
      rw [hn, zpow_neg, zpow_neg, zpow_natCast, zpow_natCast]
      gcongr
      norm_num
    _ ≤ 2 ^ k := by
      gcongr
      norm_num
  linarith [d.value_lt]

theorem toBinary_of_holds {F : Format} (hF : F.Ample) {m : Nat} {e : Int}
    (hc : F.Canonical m e) (hm : m ≠ 0) {d : Decimal} (h : (Neighbourhood.of F m e).Holds d.value)
    (negative : Bool) : (d.toBinary negative : Binary F) = .finite negative m e hc := by
  obtain ⟨hlow, hhigh⟩ := Neighbourhood.bounds_of_holds hc hm h
  have hprecision := hF.precision
  have hmin := hF.minExponent
  have hdigits : d.digits ≠ 0 := by
    rw [Ne, ← value_eq_zero]
    exact (lt_of_lt_of_le (by positivity) hlow).ne'
  have hsmall := exponent_le_of_value_lt hdigits hF.maxExponent hhigh
  have hlarge := le_of_le_value (by omega) hlow
  have hden : pow10 (-d.exponent).toNat ≠ 0 := by
    rw [pow10_eq]
    positivity
  rw [toBinary, if_neg hdigits, if_neg hsmall.not_gt, if_neg hlarge.not_gt]
  exact Binary.round_of_holds (by omega) hc hm hden d.value_eq_div h negative

end Decimal

end DataTree
