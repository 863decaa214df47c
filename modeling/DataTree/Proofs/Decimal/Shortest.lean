import DataTree.Proofs.Decimal.Nearest

namespace DataTree

namespace Neighbourhood

variable {n : Neighbourhood} {F : Format} {m : Nat} {e : Int}

def middle (n : Neighbourhood) : ℚ := n.value * 2 ^ n.exponent

theorem middle_of (F : Format) (m : Nat) (e : Int) : (of F m e).middle = 4 * m * 2 ^ (e - 2) := by
  show ((4 * m : Nat) : ℚ) * _ = _
  push_cast
  rfl

theorem scaled_eq (n : Neighbourhood) (quarters : Nat) (d : Decimal) : ∃ k : ℚ, 0 < k ∧
    ((n.scaled quarters d).1 : ℚ) = k * (quarters * 2 ^ n.exponent) ∧
    ((n.scaled quarters d).2 : ℚ) = k * d.value := by
  refine ⟨2 ^ (-n.exponent).toNat * 10 ^ (-d.exponent).toNat, by positivity, ?_, ?_⟩
  · rw [scaled, two_zpow_eq, pow10_eq, Nat.shiftLeft_eq]
    push_cast
    field_simp
  · rw [Decimal.value, ten_zpow_eq]
    show (((d.digits * pow10 d.exponent.toNat) <<< (-n.exponent).toNat : Nat) : ℚ) = _
    rw [pow10_eq, Nat.shiftLeft_eq]
    push_cast
    field_simp

theorem scaled_le {quarters : Nat} {d : Decimal} :
    (n.scaled quarters d).1 ≤ (n.scaled quarters d).2 ↔ quarters * 2 ^ n.exponent ≤ d.value := by
  obtain ⟨k, hk, hleft, hright⟩ := n.scaled_eq quarters d
  rw [← Nat.cast_le (α := ℚ), hleft, hright, mul_le_mul_iff_of_pos_left hk]

theorem scaled_ge {quarters : Nat} {d : Decimal} :
    (n.scaled quarters d).2 ≤ (n.scaled quarters d).1 ↔ d.value ≤ quarters * 2 ^ n.exponent := by
  obtain ⟨k, hk, hleft, hright⟩ := n.scaled_eq quarters d
  rw [← Nat.cast_le (α := ℚ), hleft, hright, mul_le_mul_iff_of_pos_left hk]

theorem contains_iff {d : Decimal} : n.contains d = true ↔ n.Holds d.value := by
  rw [contains, Holds]
  dsimp only
  split
  · rw [Bool.and_eq_true, decide_eq_true_iff, decide_eq_true_iff, scaled_le, scaled_ge]
  · rw [Bool.and_eq_true, decide_eq_true_iff, decide_eq_true_iff, ← not_le, ← not_le, scaled_ge,
      scaled_le, not_le, not_le]

theorem value_below (n : Neighbourhood) (grid : Int) :
    (n.below grid).value ≤ n.middle ∧ n.middle < (n.below grid).value + 10 ^ grid := by
  obtain ⟨k, hk, hnum, hden⟩ := n.scaled_eq n.value ⟨1, grid⟩
  have hden' : ((n.scaled n.value ⟨1, grid⟩).2 : ℚ) = k * 10 ^ grid := by
    rw [hden, Decimal.value]
    simp
  have hdigits : (n.below grid).digits =
      (n.scaled n.value ⟨1, grid⟩).1 / (n.scaled n.value ⟨1, grid⟩).2 := by
    rw [below, scaled]
    dsimp only
    rw [Nat.one_mul]
  have hpos : 0 < (n.scaled n.value ⟨1, grid⟩).2 := by
    rw [← Nat.cast_pos (α := ℚ), hden']
    positivity
  have hlow : ((n.below grid).digits : ℚ) * (k * 10 ^ grid) ≤ k * n.middle := by
    rw [middle, ← hnum, ← hden', hdigits]
    exact_mod_cast Nat.div_mul_le_self _ _
  have hhigh : k * n.middle < (((n.below grid).digits : ℚ) + 1) * (k * 10 ^ grid) := by
    rw [middle, ← hnum, ← hden', hdigits]
    have hlt := Nat.lt_mul_div_succ (n.scaled n.value ⟨1, grid⟩).1 hpos
    rw [mul_comm] at hlt
    exact_mod_cast hlt
  constructor
  · refine le_of_mul_le_mul_left ?_ hk
    rw [Decimal.value]
    show k * (((n.below grid).digits : ℚ) * 10 ^ grid) ≤ _
    linarith
  · refine lt_of_mul_lt_mul_left ?_ hk.le
    rw [Decimal.value]
    show _ < k * (((n.below grid).digits : ℚ) * 10 ^ grid + 10 ^ grid)
    linarith

theorem value_above (n : Neighbourhood) (grid : Int) :
    (n.above grid).value = (n.below grid).value + 10 ^ grid := by
  rw [Decimal.value, Decimal.value, above, below]
  push_cast
  ring

theorem ten_zpow_leading_le (h : n.value ≠ 0) : (10 : ℚ) ^ n.leading ≤ n.middle := by
  have hden : (1 <<< (-n.exponent).toNat : Nat) ≠ 0 := by
    rw [Nat.one_shiftLeft]
    positivity
  have hnum : n.value <<< n.exponent.toNat ≠ 0 := by
    rw [Nat.shiftLeft_eq]
    positivity
  have hmiddle : n.middle = ((n.value <<< n.exponent.toNat : Nat) : ℚ) /
      (1 <<< (-n.exponent).toNat : Nat) := by
    rw [middle, two_zpow_eq, Nat.shiftLeft_eq, Nat.one_shiftLeft]
    push_cast
    ring
  rw [hmiddle, leading]
  generalize n.value <<< n.exponent.toNat = num at hnum ⊢
  generalize 1 <<< (-n.exponent).toNat = den at hden ⊢
  have hden' : (0 : ℚ) < den := by exact_mod_cast Nat.pos_of_ne_zero hden
  split
  next hle =>
    have hquotient : num / den ≠ 0 := (Nat.div_pos hle (Nat.pos_of_ne_zero hden)).ne'
    rw [zpow_natCast, le_div_iff₀ hden']
    have hpow := (Nat.mul_le_mul_right den (pow_decimalLength_le hquotient)).trans
      (Nat.div_mul_le_self num den)
    exact_mod_cast hpow
  next hlt =>
    have hpow : den ≤ num * 10 ^ decimalLength ((den - 1) / num) := by
      have := Nat.lt_mul_of_div_lt (lt_pow_decimalLength ((den - 1) / num))
        (Nat.pos_of_ne_zero hnum)
      rw [mul_comm]
      omega
    have hcast : (den : ℚ) ≤ num * 10 ^ decimalLength ((den - 1) / num) := by exact_mod_cast hpow
    rw [zpow_neg, zpow_natCast, le_div_iff₀ hden', inv_mul_le_iff₀ (by positivity), mul_comm]
    exact hcast

theorem onGrid_holds {tie : Tie} {grid : Int} {d : Decimal} (h : n.onGrid tie grid = some d) :
    n.Holds d.value := by
  have hcases : (d = n.below grid ∧ n.contains (n.below grid) = true) ∨
      (d = n.above grid ∧ n.contains (n.above grid) = true) := by
    unfold onGrid at h
    dsimp only at h
    split at h
    next => cases h
    next hlow _ => exact .inl ⟨(Option.some.inj h).symm, hlow⟩
    next _ hhigh => exact .inr ⟨(Option.some.inj h).symm, hhigh⟩
    next hlow hhigh =>
      have heither : d = n.below grid ∨ d = n.above grid := by
        split at h
        · exact .inl (Option.some.inj h).symm
        · split at h
          · exact .inr (Option.some.inj h).symm
          · cases tie with
            | up => exact .inr (Option.some.inj h).symm
            | even =>
                dsimp only at h
                split at h
                · exact .inl (Option.some.inj h).symm
                · exact .inr (Option.some.inj h).symm
      exact heither.imp (⟨·, hlow⟩) (⟨·, hhigh⟩)
  rcases hcases with ⟨rfl, hd⟩ | ⟨rfl, hd⟩
  · exact contains_iff.1 hd
  · exact contains_iff.1 hd

theorem isSome_onGrid (tie : Tie) {grid : Int} (h : n.Holds (n.above grid).value) :
    (n.onGrid tie grid).isSome = true := by
  have hhigh := contains_iff.2 h
  unfold onGrid
  dsimp only
  rw [hhigh]
  cases n.contains (n.below grid) with
  | false => rfl
  | true =>
      dsimp only
      split
      · rfl
      · split
        · rfl
        · cases tie with
          | up => rfl
          | even =>
              dsimp only
              split <;> rfl

theorem holds_above (F : Format) (m : Nat) {grid : Int}
    (hgrid : (10 : ℚ) ^ grid < 2 * 2 ^ (e - 2)) :
    (of F m e).Holds ((of F m e).above grid).value := by
  obtain ⟨hlow, hhigh⟩ := value_below (of F m e) grid
  have hquarter : (0 : ℚ) < 2 ^ (e - 2) := by positivity
  have hlower : ((of F m e).lower : ℚ) ≤ 4 * m := by
    have hnat : (of F m e).lower ≤ 4 * m := by
      rw [of]
      dsimp only
      split <;> omega
    exact_mod_cast hnat
  have hupper : ((of F m e).upper : ℚ) = 4 * m + 2 := by
    show ((4 * m + 2 : Nat) : ℚ) = _
    push_cast
    rfl
  have hexponent : (of F m e).exponent = e - 2 := rfl
  rw [← value_above, middle_of] at hhigh
  rw [middle_of] at hlow
  have hleft : ((of F m e).lower : ℚ) * 2 ^ (e - 2) < ((of F m e).above grid).value :=
    lt_of_le_of_lt (mul_le_mul_of_nonneg_right hlower hquarter.le) hhigh
  have hright : ((of F m e).above grid).value < (of F m e).upper * 2 ^ (e - 2) := by
    rw [value_above, hupper]
    linarith
  rw [Holds, hexponent]
  split
  · exact ⟨hleft.le, hright.le⟩
  · exact ⟨hleft, hright⟩

theorem ten_zpow_lt (hF : 2 ≤ F.precision) (hm : m ≠ 0) (hwidth : m < 2 ^ F.precision) :
    (10 : ℚ) ^ ((of F m e).leading - (F.precision - 1 : Nat)) < 2 * 2 ^ (e - 2) := by
  have hvalue : (of F m e).value ≠ 0 := Nat.mul_ne_zero (by decide) hm
  have hleading := ten_zpow_leading_le hvalue
  have hquarter : (0 : ℚ) < 2 ^ (e - 2) := by positivity
  have hcast : (m : ℚ) < 2 ^ F.precision := by exact_mod_cast hwidth
  have hpow : 2 * 2 ^ F.precision ≤ (10 : ℚ) ^ (F.precision - 1) := by
    obtain ⟨k, hk⟩ := Nat.exists_eq_add_of_le hF
    rw [hk, show 2 + k - 1 = k + 1 by omega]
    calc (2 : ℚ) * 2 ^ (2 + k) = 8 * 2 ^ k := by rw [pow_add]; ring
      _ ≤ 10 * 10 ^ k := by gcongr <;> norm_num
      _ = 10 ^ (k + 1) := by rw [pow_succ]; ring
  rw [zpow_sub₀ (by norm_num), zpow_natCast, div_lt_iff₀ (by positivity)]
  calc (10 : ℚ) ^ (of F m e).leading
    _ ≤ 4 * m * 2 ^ (e - 2) := middle_of F m e ▸ hleading
    _ < 4 * 2 ^ F.precision * 2 ^ (e - 2) := by gcongr
    _ = 2 * 2 ^ (e - 2) * (2 * 2 ^ F.precision) := by ring
    _ ≤ 2 * 2 ^ (e - 2) * 10 ^ (F.precision - 1) := by gcongr

end Neighbourhood

theorem Binary.holds_shortest {F : Format} (hF : 2 ≤ F.precision) (tie : Tie) {m : Nat} (hm : m ≠ 0)
    (hwidth : m < 2 ^ F.precision) (e : Int) :
    (Neighbourhood.of F m e).Holds (shortest F tie m e).value := by
  have hfine := Neighbourhood.holds_above F m (Neighbourhood.ten_zpow_lt hF hm hwidth (e := e))
  rw [shortest]
  generalize Neighbourhood.of F m e = n at hfine ⊢
  have hlast : (n.onGrid tie (n.leading - (F.precision - 1 : Nat))).isSome = true :=
    Neighbourhood.isSome_onGrid tie hfine
  have hfound : ((List.range F.precision).findSome? fun digits : Nat =>
      n.onGrid tie (n.leading - digits)).isSome = true :=
    List.findSome?_isSome_iff.2 ⟨F.precision - 1, List.mem_range.2 (by omega), hlast⟩
  obtain ⟨d, hd⟩ := Option.isSome_iff_exists.1 hfound
  obtain ⟨digits, -, hgrid⟩ := List.exists_of_findSome?_eq_some hd
  dsimp only
  rw [hd, Option.getD_some, Decimal.value_strip]
  exact Neighbourhood.onGrid_holds hgrid

end DataTree
