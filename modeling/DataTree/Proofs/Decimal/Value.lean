import DataTree.Decimal
import DataTree.Proofs.Binary.Exact

namespace DataTree

theorem ten_zpow_eq (e : Int) : (10 : ℚ) ^ e = 10 ^ e.toNat / 10 ^ (-e).toNat := by
  rcases Int.eq_nat_or_neg e with ⟨n, rfl | rfl⟩
  · simp
  · simp

theorem pow10_eq (n : Nat) : pow10 n = 10 ^ n := rfl

theorem lt_pow_decimalLength (n : Nat) : n < 10 ^ decimalLength n :=
  (Nat.length_toDigits_le_iff (by decide) Nat.length_toDigits_pos).1 (Nat.le_refl _)

theorem pow_decimalLength_le {n : Nat} (h : n ≠ 0) : 10 ^ (decimalLength n - 1) ≤ n := by
  have hpos : 0 < decimalLength n := Nat.length_toDigits_pos
  by_contra hlt
  rw [not_le] at hlt
  rcases Nat.eq_zero_or_pos (decimalLength n - 1) with hzero | hlength
  · rw [hzero] at hlt
    omega
  · have hle : decimalLength n ≤ decimalLength n - 1 :=
      (Nat.length_toDigits_le_iff (by decide) hlength).2 hlt
    omega

namespace Decimal

def value (d : Decimal) : ℚ := d.digits * 10 ^ d.exponent

theorem value_strip (d : Decimal) : d.strip.value = d.value := by
  fun_induction strip d with
  | case1 d h ih =>
      have hdigits : (d.digits : ℚ) = (d.digits / 10 : Nat) * 10 := by
        exact_mod_cast (Nat.div_mul_cancel (Nat.dvd_of_mod_eq_zero h.2)).symm
      rw [ih, value, value, zpow_add₀ (by norm_num), zpow_one, hdigits]
      ring
  | case2 => rfl

theorem value_eq_zero {d : Decimal} : d.value = 0 ↔ d.digits = 0 := by
  have hpos : (10 : ℚ) ^ d.exponent ≠ 0 := (zpow_pos (by norm_num) _).ne'
  rw [value, mul_eq_zero, or_iff_left hpos, Nat.cast_eq_zero]

theorem value_eq_div (d : Decimal) :
    ((d.digits * pow10 d.exponent.toNat : Nat) : ℚ) = pow10 (-d.exponent).toNat * d.value := by
  have hpos : (0 : ℚ) < 10 ^ (-d.exponent).toNat := by positivity
  rw [value, ten_zpow_eq, pow10_eq, pow10_eq]
  push_cast
  field_simp

theorem value_lt (d : Decimal) : d.value < 10 ^ (d.exponent + decimalLength d.digits) := by
  have hlt : (d.digits : ℚ) < 10 ^ decimalLength d.digits := by
    exact_mod_cast lt_pow_decimalLength d.digits
  rw [value, add_comm, zpow_add₀ (by norm_num), zpow_natCast]
  gcongr

theorem le_value {d : Decimal} (h : d.digits ≠ 0) : (10 : ℚ) ^ d.exponent ≤ d.value := by
  have hone : (1 : ℚ) ≤ d.digits := by exact_mod_cast Nat.one_le_iff_ne_zero.2 h
  rw [value]
  exact le_mul_of_one_le_left (by positivity) hone

end Decimal

end DataTree
