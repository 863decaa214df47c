import DataTree.Proofs.Binary.Number

namespace DataTree

/-- Whole numbers up to the width of the mantissa are numbers of the format. -/
structure Format.HasUnits (F : Format) : Prop where
  precision : 0 < F.precision
  minExponent : F.minExponent + (F.precision - 1) ≤ 0
  maxExponent : 0 ≤ F.maxExponent

theorem Format.hasUnits_double : Format.HasUnits .double := ⟨by decide, by decide, by decide⟩

theorem Format.hasUnits_single : Format.HasUnits .single := ⟨by decide, by decide, by decide⟩

namespace Binary

variable {F : Format} {x : Binary F}

theorem shift_of_magnitude {m k : Nat} {e : Int} (h : (k : ℚ) = m * 2 ^ e) :
    m <<< e.toNat >>> (-e).toNat = k := by
  rw [two_zpow_eq, ← mul_div_assoc, eq_div_iff (by positivity)] at h
  have hwhole : m * 2 ^ e.toNat = k * 2 ^ (-e).toNat := by exact_mod_cast h.symm
  rw [Nat.shiftLeft_eq, Nat.shiftRight_eq_div_pow, hwhole, Nat.mul_div_cancel _ (Nat.two_pow_pos _)]

theorem isWhole_finite {negative : Bool} {m : Nat} {e : Int} {hc : F.Canonical m e} :
    (finite negative m e hc).isWhole = true ↔ ∃ k : Nat, (k : ℚ) = m * 2 ^ e := by
  rw [isWhole, Bool.or_eq_true, decide_eq_true_iff, beq_iff_eq, Nat.one_shiftLeft]
  rcases le_or_gt 0 e with he | he
  · have hwhole : (-e).toNat = 0 := Int.toNat_of_nonpos (by omega)
    refine iff_of_true (.inl he) ⟨m * 2 ^ e.toNat, ?_⟩
    rw [two_zpow_eq, hwhole]
    simp
  · have hfraction : e.toNat = 0 := Int.toNat_of_nonpos he.le
    rw [or_iff_right he.not_ge, ← Nat.dvd_iff_mod_eq_zero, two_zpow_eq, hfraction, pow_zero,
      mul_one_div]
    constructor
    · rintro ⟨k, rfl⟩
      exact ⟨k, by push_cast; field_simp⟩
    · rintro ⟨k, hk⟩
      rw [eq_div_iff (by positivity)] at hk
      exact ⟨k, by rw [mul_comm]; exact_mod_cast hk.symm⟩

theorem isWhole_iff : x.isWhole = true ↔ ∃ n : Int, x.number? = some (n : ℚ) := by
  cases x with
  | finite negative m e hc =>
      rw [isWhole_finite]
      constructor
      · rintro ⟨k, hk⟩
        refine ⟨if negative then -k else k, ?_⟩
        rw [number?, ← hk]
        cases negative <;> simp
      · rintro ⟨n, hn⟩
        exact ⟨n.natAbs, (natAbs_of_number? hn).1⟩
  | _ =>
      refine iff_of_false Bool.false_ne_true ?_
      rintro ⟨n, hn⟩
      cases hn

section CutOff

variable {n : Int}

theorem cutOff_of_number? {least greatest : Int} (h : x.number? = some (n : ℚ)) :
    x.cutOff least greatest = max least (min greatest n) := by
  cases x with
  | finite negative m e hc =>
      obtain ⟨habs, hsign⟩ := natAbs_of_number? h
      simp only [cutOff, shift_of_magnitude habs, hsign]
  | _ => cases h

theorem toInt?_of_number? (h : x.number? = some (n : ℚ)) : x.toInt? = some x.toInt128 :=
  if_pos (isWhole_iff.2 ⟨n, h⟩)

theorem exists_of_toInt? (h : x.toInt? = some n) :
    n = x.toInt128 ∧ ∃ k : Int, x.number? = some (k : ℚ) := by
  rw [toInt?] at h
  split at h
  next hwhole =>
    cases h
    exact ⟨rfl, isWhole_iff.1 hwhole⟩
  next => cases h

theorem toInt128_eq_iff (h : x.number? = some (n : ℚ)) (i : Int64) :
    x.toInt128 = i.toInt ↔ n = i.toInt := by
  have hlow := Int64.le_toInt i
  have hhigh := Int64.toInt_lt i
  rw [toInt128, cutOff_of_number? h, Nat.one_shiftLeft]
  omega

end CutOff

theorem exists_of_natAbs_lt (hF : F.HasUnits) {n : Int} (h : n.natAbs < 2 ^ F.precision) :
    ∃ x : Binary F, x.number? = some (n : ℚ) := by
  by_cases hn : n = 0
  · have hc : F.Canonical 0 F.minExponent := by
      refine ⟨?_, le_refl _, ?_, .inl rfl⟩
      · rw [Nat.one_shiftLeft]
        positivity
      · have := hF.minExponent
        have := hF.precision
        have := hF.maxExponent
        omega
    exact ⟨finite false 0 F.minExponent hc, by rw [number?, hn]; simp⟩
  · have hmin := hF.minExponent
    obtain ⟨m, e, hc, hm⟩ := Format.exists_canonical hF.precision (Int.natAbs_ne_zero.2 hn) h
      (by omega) hF.maxExponent
    refine ⟨finite (decide (n < 0)) m e hc, ?_⟩
    rw [number?, hm, zpow_zero, mul_one, Nat.cast_natAbs, Int.cast_abs]
    congr 1
    rcases lt_or_ge n 0 with hneg | hpos
    · have hcast : (n : ℚ) < 0 := by exact_mod_cast hneg
      rw [decide_eq_true hneg, if_pos rfl, abs_of_neg hcast, neg_neg]
    · have hcast : (0 : ℚ) ≤ n := by exact_mod_cast hpos
      rw [decide_eq_false (by omega), if_neg Bool.false_ne_true, abs_of_nonneg hcast]

theorem ofInt_whole (hF : F.HasUnits) (n : Int) :
    (∃ negative, (ofInt n : Binary F) = .infinity negative) ∨
      ∃ k : Int, (ofInt n : Binary F).number? = some (k : ℚ) := by
  by_cases h : n.natAbs < 2 ^ F.precision
  · obtain ⟨x, hx⟩ := exists_of_natAbs_lt hF h
    exact .inr ⟨n, number?_ofInt hF.precision hx⟩
  · -- beyond the width of the mantissa the last place is not below the unit
    have hn : n.natAbs ≠ 0 := by
      have := Nat.two_pow_pos F.precision
      omega
    have hlog : F.precision ≤ n.natAbs.log2 := (Nat.le_log2 hn).2 (by omega)
    have hplace : 0 ≤ F.lastPlace n.natAbs 1 := by
      rw [Format.lastPlace_eq F hn one_ne_zero (k := n.natAbs.log2)]
      · omega
      · rw [Nat.cast_one, one_mul]
        exact two_zpow_log2_le hn
      · rw [Nat.cast_one, one_mul]
        exact lt_two_zpow_log2 _
    have hparts {negative : Bool} {m : Nat} {e : Int} (he : 0 ≤ e) :
        (∃ sign, (ofParts negative m e : Binary F) = .infinity sign) ∨
          ∃ k : Int, (ofParts negative m e : Binary F).number? = some (k : ℚ) := by
      rw [ofParts]
      split
      next hc => exact .inr (isWhole_iff.1 (by rw [isWhole, decide_eq_true he, Bool.true_or]))
      next => exact .inl ⟨negative, rfl⟩
    rw [ofInt, round]
    split
    · exact hparts (by omega)
    · exact hparts hplace

theorem ofInt_toInt128 (hF : F.HasUnits) (i : Int64) :
    (ofInt i.toInt : Binary F).toInt128 = i.toInt ↔
      (ofInt i.toInt : Binary F).number? = some (i.toInt : ℚ) := by
  constructor
  · intro hi
    rcases ofInt_whole hF i.toInt with ⟨negative, hx⟩ | ⟨k, hk⟩
    · have hlow := Int64.le_toInt i
      have hhigh := Int64.toInt_lt i
      rw [hx, toInt128, cutOff, Nat.one_shiftLeft] at hi
      cases negative <;> simp at hi <;> omega
    · obtain rfl := (toInt128_eq_iff hk i).1 hi
      exact hk
  · intro hi
    exact (toInt128_eq_iff hi i).2 rfl

theorem ofInt?_eq_some (hF : F.HasUnits) {i : Int64} :
    ofInt? i.toInt = some x ↔ x = ofInt i.toInt ∧ x.number? = some (i.toInt : ℚ) := by
  simp only [ofInt?, ofInt_toInt128 hF]
  split
  next hi =>
    rw [Option.some.injEq]
    exact ⟨fun h => ⟨h.symm, h ▸ hi⟩, fun h => h.1.symm⟩
  next hi =>
    refine ⟨nofun, ?_⟩
    rintro ⟨rfl, h⟩
    exact absurd h hi

theorem ofInt?_eq_none (hF : F.HasUnits) {i : Int64} :
    ofInt? i.toInt = (none : Option (Binary F)) ↔
      ¬ ∃ y : Binary F, y.number? = some (i.toInt : ℚ) := by
  simp only [ofInt?, ofInt_toInt128 hF, ite_eq_right_iff, reduceCtorEq, imp_false]
  refine not_congr ⟨fun h => ⟨_, h⟩, ?_⟩
  rintro ⟨y, hy⟩
  exact number?_ofInt hF.precision hy

end Binary

end DataTree
