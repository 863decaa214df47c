import DataTree.Binary.Bits
import DataTree.Proofs.Binary.Number

namespace DataTree

namespace Format

/-- The number that bits denote. The field of all ones denotes none; the field of zero stands for
mantissas without a leading bit. -/
def dyadic? (F : Format) (bits : Nat) : Option ℚ :=
  let width : Nat := 2 ^ (F.precision - 1)
  let field := bits / width % (F.topField + 1)
  let fraction := bits % width
  let sign : ℚ := if bits.testBit F.signPlace then -1 else 1
  if field = F.topField then none
  else if field = 0 then some (sign * fraction * 2 ^ F.minExponent)
  else some (sign * (width + fraction) * 2 ^ (F.minExponent + field - 1))

/-- The exponents fill their field, up to its value of all ones. -/
structure Interchange (F : Format) : Prop where
  precision : 1 < F.precision
  exponents : F.minExponent ≤ F.maxExponent
  topField : F.topField + 1 = 2 ^ (F.topField.log2 + 1)

theorem interchange_double : Format.Interchange .double := ⟨by decide, by decide, by decide⟩

theorem interchange_single : Format.Interchange .single := ⟨by decide, by decide, by decide⟩

variable {F : Format} (hF : F.Interchange)
include hF

theorem Interchange.topField_eq : (F.topField : Int) = F.maxExponent - F.minExponent + 2 := by
  have := hF.exponents
  exact Int.toNat_of_nonneg (by omega)

theorem Interchange.signPlace_eq :
    2 ^ F.signPlace = 2 ^ (F.precision - 1) * (F.topField + 1) := by
  have := hF.precision
  rw [hF.topField, ← pow_add, signPlace]
  congr 1
  omega

theorem Interchange.width_eq : 2 ^ F.precision = 2 * 2 ^ (F.precision - 1) := by
  have := hF.precision
  rw [← pow_succ']
  congr 1
  omega

end Format

namespace Binary

variable {F : Format}

theorem number?_ofParts {negative : Bool} {m : Nat} {e : Int} (hc : F.Canonical m e) :
    (ofParts negative m e : Binary F).number? =
      some ((if negative then -1 else 1 : ℚ) * m * 2 ^ e) := by
  rw [ofParts, dif_pos hc, number?]
  cases negative <;> simp

theorem number?_ofBits (hF : F.Interchange) (bits : Nat) :
    (ofBits bits : Binary F).number? = F.dyadic? bits := by
  have hsign : (bits >>> F.signPlace % 2 == 1) = bits.testBit F.signPlace := by
    rw [Nat.testBit_eq_decide_div_mod_eq, Nat.shiftRight_eq_div_pow]
    rfl
  have hfraction : bits % 2 ^ (F.precision - 1) < 2 ^ (F.precision - 1) :=
    Nat.mod_lt _ (Nat.two_pow_pos _)
  have hfield : bits / 2 ^ (F.precision - 1) % (F.topField + 1) < F.topField + 1 :=
    Nat.mod_lt _ (Nat.succ_pos _)
  have hwidth := hF.width_eq
  have htop := hF.topField_eq
  have hexponents := hF.exponents
  rw [ofBits, Format.dyadic?]
  simp only [hsign, Nat.one_shiftLeft]
  split
  next => split <;> rfl
  next hnottop =>
    split
    next hzero =>
      refine number?_ofParts ⟨?_, le_refl _, hexponents, .inl rfl⟩
      rw [Nat.one_shiftLeft]
      omega
    next hnonzero =>
      have hexponent (field : Nat) (h : field ≠ 0) :
          F.minExponent + (field - 1 : Nat) = F.minExponent + field - 1 := by omega
      rw [number?_ofParts ⟨?_, ?_, ?_, .inr ?_⟩, hexponent _ hnonzero, Nat.cast_add]
      · rw [Nat.one_shiftLeft]
        omega
      · omega
      · omega
      · rw [Nat.one_shiftLeft]
        omega

theorem ofBits_parts (hF : F.Interchange) (negative : Bool) {field fraction : Nat}
    (hfield : field ≤ F.topField) (hfraction : fraction < 2 ^ (F.precision - 1)) :
    (ofBits ((if negative then 1 <<< F.signPlace else 0) + field <<< (F.precision - 1) + fraction) :
        Binary F) =
      if field = F.topField then if fraction = 0 then .infinity negative else .nan
      else if field = 0 then ofParts negative fraction F.minExponent
      else ofParts negative (2 ^ (F.precision - 1) + fraction) (F.minExponent + (field - 1 : Nat)) := by
  obtain ⟨sign, hsign, hnegative⟩ : ∃ sign, (if negative then 1 else 0) = sign ∧
      negative = (sign % 2 == 1) := ⟨_, rfl, by cases negative <;> rfl⟩
  have hbits : (if negative then 1 <<< F.signPlace else 0) + field <<< (F.precision - 1) + fraction =
      (sign * (F.topField + 1) + field) * 2 ^ (F.precision - 1) + fraction := by
    rw [Nat.one_shiftLeft, hF.signPlace_eq, Nat.shiftLeft_eq, ← hsign]
    cases negative
    · simp
    · simp
      ring
  have hhigh : ((sign * (F.topField + 1) + field) * 2 ^ (F.precision - 1) + fraction) /
      2 ^ (F.precision - 1) = sign * (F.topField + 1) + field := by
    rw [mul_comm, Nat.mul_add_div (Nat.two_pow_pos _), Nat.div_eq_of_lt hfraction, Nat.add_zero]
  have hlow : ((sign * (F.topField + 1) + field) * 2 ^ (F.precision - 1) + fraction) %
      2 ^ (F.precision - 1) = fraction := by
    rw [mul_comm, Nat.mul_add_mod, Nat.mod_eq_of_lt hfraction]
  have htop : (sign * (F.topField + 1) + field) / (F.topField + 1) = sign := by
    rw [mul_comm, Nat.mul_add_div (Nat.succ_pos _), Nat.div_eq_of_lt (Nat.lt_succ_of_le hfield),
      Nat.add_zero]
  have hmiddle : (sign * (F.topField + 1) + field) % (F.topField + 1) = field := by
    rw [mul_comm, Nat.mul_add_mod, Nat.mod_eq_of_lt (Nat.lt_succ_of_le hfield)]
  rw [hbits, ofBits]
  simp only [Nat.one_shiftLeft, Nat.shiftRight_eq_div_pow, hF.signPlace_eq, ← Nat.div_div_eq_div_mul,
    hhigh, hlow, htop, hmiddle, ← hnegative]

theorem ofBits_toBits (hF : F.Interchange) (x : Binary F) : ofBits x.toBits = x := by
  have hprecision := hF.precision
  have hexponents := hF.exponents
  have htopField := hF.topField_eq
  cases x with
  | nan =>
      have hquiet : 1 <<< (F.precision - 2) < 2 ^ (F.precision - 1) := by
        rw [Nat.one_shiftLeft]
        exact Nat.pow_lt_pow_right one_lt_two (by omega)
      refine (ofBits_parts hF false (le_refl _) hquiet).trans ?_
      rw [if_pos rfl, if_neg (by simp [Nat.one_shiftLeft])]
  | infinity negative =>
      refine (ofBits_parts hF negative (le_refl _) (Nat.two_pow_pos _)).trans ?_
      rw [if_pos rfl, if_pos rfl]
  | finite negative m e hc =>
      obtain ⟨hwidth, hmin, hmax, hfull⟩ := id hc
      rw [Nat.one_shiftLeft] at hwidth hfull
      have hdouble := hF.width_eq
      rcases lt_or_ge m (2 ^ (F.precision - 1)) with hm | hm
      · obtain rfl := hfull.resolve_right (not_le.2 hm)
        have hbits := ofBits_parts hF negative (Nat.zero_le _) hm
        have hfinite : 0 ≠ F.topField := by omega
        rw [if_neg hfinite, if_pos rfl, ofParts, dif_pos hc] at hbits
        refine (congrArg ofBits (if_pos ?_)).trans hbits
        rwa [Nat.one_shiftLeft]
      · have hfield : (e - F.minExponent + 1).toNat ≤ F.topField := by omega
        have hfraction : m - 2 ^ (F.precision - 1) < 2 ^ (F.precision - 1) := by omega
        have hmantissa : 2 ^ (F.precision - 1) + (m - 2 ^ (F.precision - 1)) = m := by omega
        have hexponent : F.minExponent + ((e - F.minExponent + 1).toNat - 1 : Nat) = e := by omega
        have hbits := ofBits_parts hF negative hfield hfraction
        have hfinite : (e - F.minExponent + 1).toNat ≠ F.topField := by omega
        have hnonzero : (e - F.minExponent + 1).toNat ≠ 0 := by omega
        rw [if_neg hfinite, if_neg hnonzero, hmantissa, hexponent, ofParts, dif_pos hc] at hbits
        refine (congrArg ofBits (if_neg ?_)).trans ?_
        · rw [Nat.one_shiftLeft]
          omega
        · rw [Nat.one_shiftLeft (F.precision - 1)]
          exact hbits

end Binary

end DataTree
