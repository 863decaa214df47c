import DataTree.Binary
import Mathlib.Algebra.Order.Field.Power
import Mathlib.Algebra.Order.Ring.Rat
import Mathlib.Data.Int.Log
import Mathlib.Data.Nat.Log
import Mathlib.Data.Rat.Cast.Order
import Mathlib.Data.Rat.Floor
import Mathlib.Tactic.FieldSimp
import Mathlib.Tactic.Positivity
import Mathlib.Tactic.Ring

namespace DataTree

theorem two_zpow_eq (e : Int) : (2 : ℚ) ^ e = 2 ^ e.toNat / 2 ^ (-e).toNat := by
  rcases Int.eq_nat_or_neg e with ⟨n, rfl | rfl⟩
  · simp
  · simp

theorem shiftLeft_le_shiftLeft_iff (num den : Nat) (e : Int) :
    den <<< e.toNat ≤ num <<< (-e).toNat ↔ (den : ℚ) * 2 ^ e ≤ num := by
  rw [Nat.shiftLeft_eq, Nat.shiftLeft_eq, two_zpow_eq, ← mul_div_assoc,
    div_le_iff₀ (by positivity), ← Nat.cast_le (α := ℚ)]
  push_cast
  rfl

theorem shiftLeft_eq_shiftLeft_iff (num den : Nat) (e : Int) :
    num <<< (-e).toNat = den <<< e.toNat ↔ (num : ℚ) = den * 2 ^ e := by
  rw [Nat.shiftLeft_eq, Nat.shiftLeft_eq, two_zpow_eq, ← mul_div_assoc,
    eq_div_iff (by positivity), ← Nat.cast_inj (R := ℚ)]
  push_cast
  rfl

theorem two_zpow_log2_le {n : Nat} (h : n ≠ 0) : (2 : ℚ) ^ (n.log2 : Int) ≤ n := by
  rw [zpow_natCast]
  exact_mod_cast Nat.log2_self_le h

theorem lt_two_zpow_log2 (n : Nat) : (n : ℚ) < 2 ^ ((n.log2 : Int) + 1) := by
  have h : n < 2 ^ (n.log2 + 1) := Nat.lt_log2_self
  have hc : ((n.log2 : Int) + 1) = ((n.log2 + 1 : Nat) : Int) := by push_cast; rfl
  rw [hc, zpow_natCast]
  exact_mod_cast h

namespace Format

theorem log2_sub_log2 {num den : Nat} (hn : num ≠ 0) (hd : den ≠ 0) {k : Int}
    (hlow : (den : ℚ) * 2 ^ k ≤ num) (hhigh : (num : ℚ) < den * 2 ^ (k + 1)) :
    k ≤ (num.log2 : Int) - den.log2 ∧ (num.log2 : Int) - den.log2 ≤ k + 1 := by
  have hden : (0 : ℚ) < den := by exact_mod_cast Nat.pos_of_ne_zero hd
  constructor
  · have h : (2 : ℚ) ^ (den.log2 + k : Int) < 2 ^ ((num.log2 : Int) + 1) := calc
      (2 : ℚ) ^ (den.log2 + k : Int) = 2 ^ (den.log2 : Int) * 2 ^ k := zpow_add₀ two_ne_zero _ _
      _ ≤ den * 2 ^ k := by gcongr; exact two_zpow_log2_le hd
      _ ≤ num := hlow
      _ < 2 ^ ((num.log2 : Int) + 1) := lt_two_zpow_log2 num
    have := (zpow_lt_zpow_iff_right₀ one_lt_two).1 h
    omega
  · have h : (2 : ℚ) ^ (num.log2 : Int) < 2 ^ ((den.log2 : Int) + 1 + (k + 1)) := calc
      (2 : ℚ) ^ (num.log2 : Int) ≤ num := two_zpow_log2_le hn
      _ < den * 2 ^ (k + 1) := hhigh
      _ ≤ 2 ^ ((den.log2 : Int) + 1) * 2 ^ (k + 1) := by gcongr; exact (lt_two_zpow_log2 den).le
      _ = 2 ^ ((den.log2 : Int) + 1 + (k + 1)) := (zpow_add₀ two_ne_zero _ _).symm
    have := (zpow_lt_zpow_iff_right₀ one_lt_two).1 h
    omega

theorem lastPlace_eq (F : Format) {num den : Nat} (hn : num ≠ 0) (hd : den ≠ 0) {k : Int}
    (hlow : (den : ℚ) * 2 ^ k ≤ num) (hhigh : (num : ℚ) < den * 2 ^ (k + 1)) :
    F.lastPlace num den = max F.minExponent (k - (F.precision - 1)) := by
  have hden : (0 : ℚ) < den := by exact_mod_cast Nat.pos_of_ne_zero hd
  obtain ⟨hlo, hhi⟩ := log2_sub_log2 hn hd hlow hhigh
  rw [lastPlace, if_neg hn]
  simp only [shiftLeft_le_shiftLeft_iff]
  by_cases hest : (num.log2 : Int) - den.log2 = k
  · rw [hest, if_pos hlow]
  · have hnext : (num.log2 : Int) - den.log2 = k + 1 := by omega
    rw [hnext, if_neg (not_le.2 hhigh), Int.add_sub_cancel]

theorem lastPlace_eq_of_bounds {F : Format} {num den : Nat} (hd : den ≠ 0) {e : Int}
    (hmin : F.minExponent ≤ e) (hhigh : (num : ℚ) < den * 2 ^ (F.precision + e))
    (hlow : e = F.minExponent ∨ (den : ℚ) * 2 ^ (F.precision - 1 + e) ≤ num) :
    F.lastPlace num den = e := by
  have hden : (0 : ℚ) < den := by exact_mod_cast Nat.pos_of_ne_zero hd
  by_cases hn : num = 0
  · rw [lastPlace, if_pos hn]
    refine (hlow.resolve_right ?_).symm
    rw [hn, not_le, Nat.cast_zero]
    positivity
  · have hnum : (0 : ℚ) < num := by exact_mod_cast Nat.pos_of_ne_zero hn
    have hbelow : (2 : ℚ) ^ Int.log 2 ((num : ℚ) / den) ≤ num / den :=
      Int.zpow_log_le_self one_lt_two (div_pos hnum hden)
    have habove : (num : ℚ) / den < 2 ^ (Int.log 2 ((num : ℚ) / den) + 1) :=
      Int.lt_zpow_succ_log_self one_lt_two _
    generalize Int.log 2 ((num : ℚ) / den) = k at hbelow habove
    rw [le_div_iff₀' hden] at hbelow
    rw [div_lt_iff₀' hden] at habove
    have hk : k < F.precision + e :=
      (zpow_lt_zpow_iff_right₀ one_lt_two).1 (lt_of_mul_lt_mul_left (hbelow.trans_lt hhigh) hden.le)
    rw [lastPlace_eq F hn hd hbelow habove]
    rcases hlow with he | hlow
    · omega
    · have hk' : (F.precision : Int) - 1 + e < k + 1 :=
        (zpow_lt_zpow_iff_right₀ one_lt_two).1
          (lt_of_mul_lt_mul_left (hlow.trans_lt habove) hden.le)
      omega

theorem lastPlace_of_canonical {F : Format} (hF : 0 < F.precision) {m : Nat} {e : Int}
    (hc : F.Canonical m e) {num den : Nat} (hd : den ≠ 0) (h : (num : ℚ) = den * (m * 2 ^ e)) :
    F.lastPlace num den = e := by
  have hden : (0 : ℚ) < den := by exact_mod_cast Nat.pos_of_ne_zero hd
  obtain ⟨hwidth, hmin, -, hfull⟩ := hc
  rw [Nat.one_shiftLeft] at hwidth hfull
  refine lastPlace_eq_of_bounds hd hmin ?_ (hfull.imp_right fun hfull => ?_)
  · have hcast : (m : ℚ) < 2 ^ F.precision := by exact_mod_cast hwidth
    rw [h, zpow_add₀ two_ne_zero, zpow_natCast]
    gcongr
  · have hcast : (2 : ℚ) ^ (F.precision - 1) ≤ m := by exact_mod_cast hfull
    have hexponent : (F.precision : Int) - 1 = (F.precision - 1 : Nat) := by omega
    rw [h, zpow_add₀ two_ne_zero, hexponent, zpow_natCast]
    gcongr

theorem canonical_unique {F : Format} (hF : 0 < F.precision) {m n : Nat} {e d : Int}
    (hc : F.Canonical m e) (hn : F.Canonical n d) (h : (m : ℚ) * 2 ^ e = n * 2 ^ d) :
    m = n ∧ e = d := by
  have hden : (1 <<< (-e).toNat) ≠ 0 := by simp [Nat.one_shiftLeft]
  have hnum : ((m <<< e.toNat : Nat) : ℚ) = (1 <<< (-e).toNat : Nat) * (m * 2 ^ e) := by
    rw [Nat.shiftLeft_eq, Nat.one_shiftLeft, two_zpow_eq]
    push_cast
    field_simp
  have he := lastPlace_of_canonical hF hc hden hnum
  have hd := lastPlace_of_canonical hF hn hden (hnum.trans (by rw [h]))
  obtain rfl : e = d := he.symm.trans hd
  refine ⟨?_, rfl⟩
  exact_mod_cast mul_right_cancel₀ (zpow_ne_zero e two_ne_zero) h

/-- A magnitude of no more than the full width is a number of the format, if its leading place is in
reach of the least exponent. -/
theorem exists_canonical {F : Format} (hF : 0 < F.precision) {m : Nat} {e : Int} (hm : m ≠ 0)
    (hwidth : m < 2 ^ F.precision) (hmin : F.minExponent + (F.precision - 1) ≤ e + m.log2)
    (hmax : e ≤ F.maxExponent) : ∃ n d, F.Canonical n d ∧ (n : ℚ) * 2 ^ d = m * 2 ^ e := by
  -- the mantissa moves left until it has the full width
  have hlog : m.log2 < F.precision := (Nat.log2_lt hm).2 hwidth
  have hlow : 2 ^ (F.precision - 1) ≤ m * 2 ^ (F.precision - 1 - m.log2) := calc
    2 ^ (F.precision - 1) = 2 ^ m.log2 * 2 ^ (F.precision - 1 - m.log2) := by
      rw [← pow_add]; congr 1; omega
    _ ≤ m * 2 ^ (F.precision - 1 - m.log2) := Nat.mul_le_mul_right _ (Nat.log2_self_le hm)
  have hhigh : m * 2 ^ (F.precision - 1 - m.log2) < 2 ^ F.precision := calc
    m * 2 ^ (F.precision - 1 - m.log2) < 2 ^ (m.log2 + 1) * 2 ^ (F.precision - 1 - m.log2) :=
      Nat.mul_lt_mul_of_pos_right Nat.lt_log2_self (Nat.two_pow_pos _)
    _ = 2 ^ F.precision := by rw [← pow_add]; congr 1; omega
  refine ⟨m * 2 ^ (F.precision - 1 - m.log2), e - (F.precision - 1 - m.log2 : Nat),
    ⟨?_, ?_, ?_, Or.inr ?_⟩, ?_⟩
  · rwa [Nat.one_shiftLeft]
  · omega
  · omega
  · rwa [Nat.one_shiftLeft]
  · rw [zpow_sub₀ two_ne_zero, zpow_natCast]
    push_cast
    field_simp

end Format

theorem roundHalfEven_mul {den : Nat} (hd : 0 < den) (m : Nat) :
    roundHalfEven (den * m) den = m := by
  have hne : ¬ (2 * 0 = den ∧ m % 2 = 1) := by omega
  simp [roundHalfEven, Nat.mul_div_cancel_left m hd, hd.ne]

namespace Binary

variable {F : Format}

theorem round_of_canonical (hF : 0 < F.precision) {m : Nat} {e : Int} (hc : F.Canonical m e)
    {num den : Nat} (hd : den ≠ 0) (h : (num : ℚ) = den * (m * 2 ^ e)) (negative : Bool) :
    (round negative num den : Binary F) = .finite negative m e hc := by
  have hplace := Format.lastPlace_of_canonical hF hc hd h
  have hshift : num <<< (-e).toNat = (den <<< e.toNat) * m := by
    rw [Nat.shiftLeft_eq, Nat.shiftLeft_eq, mul_assoc, mul_comm _ m, ← mul_assoc,
      ← Nat.shiftLeft_eq, ← Nat.shiftLeft_eq, shiftLeft_eq_shiftLeft_iff, h]
    push_cast
    ring
  have hpos : 0 < den <<< e.toNat := by
    rw [Nat.shiftLeft_eq]
    exact Nat.mul_pos (Nat.pos_of_ne_zero hd) (Nat.two_pow_pos _)
  have hm : m ≠ 1 <<< F.precision := hc.1.ne
  rw [round]
  simp only [hplace, hshift, roundHalfEven_mul hpos, if_neg hm, ofParts, dif_pos hc]

theorem convert_finite {G : Format} (hG : 0 < G.precision) {m n : Nat} {e d : Int}
    (hc : F.Canonical m e) (hn : G.Canonical n d) (h : (n : ℚ) * 2 ^ d = m * 2 ^ e)
    (negative : Bool) :
    (finite negative m e hc).convert = (finite negative n d hn : Binary G) := by
  have hden : (1 <<< (-e).toNat) ≠ 0 := by simp [Nat.one_shiftLeft]
  rw [convert]
  apply round_of_canonical hG hn hden
  rw [h, Nat.shiftLeft_eq, Nat.one_shiftLeft, two_zpow_eq]
  push_cast
  field_simp

theorem exists_double_of_single {m : Nat} {e : Int} (hc : Format.single.Canonical m e) :
    ∃ n d, Format.double.Canonical n d ∧ (n : ℚ) * 2 ^ d = m * 2 ^ e := by
  obtain ⟨hwidth, hmin, hmax, -⟩ := hc
  have hwidth : m < 2 ^ 24 := by rwa [Nat.one_shiftLeft] at hwidth
  have hmin : -149 ≤ e := hmin
  have hmax : e ≤ 104 := hmax
  by_cases hm : m = 0
  · exact ⟨0, -1074, by decide, by simp [hm]⟩
  · refine Format.exists_canonical (by decide) hm (hwidth.trans (by decide)) ?_ ?_
    · show (-1074 : Int) + (53 - 1) ≤ _
      omega
    · show _ ≤ (971 : Int)
      omega

theorem convert_convert (x : Single) : ((x.convert : Double).convert : Single) = x := by
  cases x with
  | nan => rfl
  | infinity negative => rfl
  | finite negative m e hc =>
      obtain ⟨n, d, hn, h⟩ := exists_double_of_single hc
      rw [convert_finite (by decide) hc hn h, convert_finite (by decide) hn hc h.symm]

theorem equals_self {x : Binary F} (h : x.isNaN = false) : x.equals x = true := by
  cases x with
  | nan => cases h
  | infinity negative => simp [equals]
  | finite negative m e hc => simp [equals]

theorem equals_of_equals {x a b : Binary F} (ha : x.equals a = true)
    (hb : x.equals b = true) : a.equals b = true := by
  cases x with
  | nan => cases ha
  | infinity negative =>
      cases a <;> cases b <;> simp_all [equals]
  | finite negative m e hc =>
      cases a <;> cases b <;> simp_all [equals]
      grind

theorem narrow?_convert (x : Single) : (x.convert : Double).narrow? = some x := by
  rw [narrow?, convert_convert]
  by_cases h : (x.convert : Double).isNaN = true
  · rw [h, Bool.true_or]
    rfl
  · rw [equals_self (Bool.eq_false_iff.2 h), Bool.or_true]
    rfl

end Binary

end DataTree
