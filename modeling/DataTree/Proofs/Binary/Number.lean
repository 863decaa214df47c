import DataTree.Proofs.Binary.Exact

namespace DataTree.Binary

variable {F : Format}

def number? : Binary F → Option ℚ
  | .finite negative m e _ => some (if negative then -(m * 2 ^ e) else m * 2 ^ e)
  | _ => none

theorem number?_of_equals {x y : Binary F} (h : x.equals y = true) : x.number? = y.number? := by
  cases x with
  | finite a m e _ =>
      cases y with
      | finite b n f _ =>
          simp only [equals, Bool.and_eq_true, Bool.or_eq_true, beq_iff_eq] at h
          obtain ⟨⟨rfl, rfl⟩, rfl | rfl⟩ := h
          · rfl
          · simp [number?]
      | _ => cases h
  | infinity a =>
      cases y with
      | infinity b => rfl
      | _ => cases h
  | nan => cases y <;> cases h

theorem abs_of_number? {negative : Bool} {m : Nat} {e : Int} {hc : F.Canonical m e} {q : ℚ}
    (h : (finite negative m e hc).number? = some q) :
    |q| = m * 2 ^ e ∧ q = if negative then -|q| else |q| := by
  have hvalue : (if negative then -((m : ℚ) * 2 ^ e) else m * 2 ^ e) = q := Option.some.inj h
  have hpos : (0 : ℚ) ≤ m * 2 ^ e := by positivity
  have habs : |q| = m * 2 ^ e := by
    rw [← hvalue]
    cases negative
    · exact abs_of_nonneg hpos
    · exact (abs_neg _).trans (abs_of_nonneg hpos)
  exact ⟨habs, by rw [habs, hvalue]⟩

theorem natAbs_of_number? {negative : Bool} {m : Nat} {e : Int} {hc : F.Canonical m e} {n : Int}
    (h : (finite negative m e hc).number? = some (n : ℚ)) :
    ((n.natAbs : Nat) : ℚ) = m * 2 ^ e ∧ (if negative then -(n.natAbs : Int) else n.natAbs) = n := by
  obtain ⟨habs, hsign⟩ := abs_of_number? h
  have hcast : ((n.natAbs : Nat) : ℚ) = |(n : ℚ)| := by rw [Nat.cast_natAbs, Int.cast_abs]
  rw [← hcast] at hsign
  refine ⟨hcast.trans habs, Int.cast_injective (α := ℚ) (Eq.trans ?_ hsign.symm)⟩
  cases negative <;> simp

theorem equals_of_number? (hF : 0 < F.precision) {x y : Binary F} {q : ℚ}
    (hx : x.number? = some q) (hy : y.number? = some q) : x.equals y = true := by
  cases x with
  | finite a m e hc =>
      cases y with
      | finite b n d hn =>
          obtain ⟨hxabs, hxsign⟩ := abs_of_number? hx
          obtain ⟨hyabs, hysign⟩ := abs_of_number? hy
          obtain ⟨rfl, rfl⟩ := Format.canonical_unique hF hc hn (hxabs.symm.trans hyabs)
          rw [equals, beq_self_eq_true, beq_self_eq_true, Bool.true_and, Bool.true_and,
            Bool.or_eq_true, beq_iff_eq, beq_iff_eq, or_iff_not_imp_right]
          intro hm
          have hpos : 0 < |q| := by
            rw [hxabs]
            have := Nat.pos_of_ne_zero hm
            positivity
          have hsigns := hxsign.symm.trans hysign
          cases a <;> cases b
          · rfl
          · simp at hsigns
            linarith
          · simp at hsigns
            linarith
          · rfl
      | _ => cases hy
  | _ => cases hx

theorem number?_convert (y : Single) : (y.convert : Double).number? = y.number? := by
  cases y with
  | finite negative m e hc =>
      obtain ⟨n, d, hn, h⟩ := exists_double_of_single hc
      rw [convert_finite (by decide) hc hn h, number?, number?, h]
  | _ => rfl

theorem number?_of_narrow? {x : Double} {y : Single} (h : x.narrow? = some y) :
    y.number? = x.number? := by
  rw [narrow?] at h
  split at h
  next hx =>
    cases h
    rw [Bool.or_eq_true] at hx
    rcases hx with hnan | hequals
    · cases x with
      | nan => rfl
      | _ => cases hnan
    · rw [← number?_convert, number?_of_equals hequals]
  next => cases h

theorem narrow?_eq_some {x : Double} {y : Single} :
    x.narrow? = some y ↔ (y.convert : Double) = x := by
  constructor
  · intro h
    have hnumber := number?_of_narrow? h
    rw [narrow?] at h
    split at h
    next =>
      cases h
      cases x with
      | finite negative m e hc =>
          cases hy : ((finite negative m e hc).convert : Single) with
          | finite b n d hn =>
              rw [hy] at hnumber
              have hvalue : (n : ℚ) * 2 ^ d = m * 2 ^ e := by
                obtain ⟨hyabs, -⟩ := abs_of_number? hnumber
                obtain ⟨hxabs, -⟩ := abs_of_number? (rfl : (finite negative m e hc).number? = some _)
                exact hyabs.symm.trans hxabs
              rw [convert_finite (by decide) hc hn hvalue] at hy
              cases hy
              exact convert_finite (by decide) hn hc hvalue.symm negative
          | _ =>
              rw [hy] at hnumber
              cases hnumber
      | _ => rfl
    next => cases h
  · rintro rfl
    exact narrow?_convert y

theorem exists_narrow? {x : Double} {y : Single} {q : ℚ} (hx : x.number? = some q)
    (hy : y.number? = some q) : ∃ z : Single, x.narrow? = some z := by
  cases x with
  | finite negative m e hc =>
      cases y with
      | finite b n d hn =>
          have hvalue : (n : ℚ) * 2 ^ d = m * 2 ^ e :=
            (abs_of_number? hy).1.symm.trans (abs_of_number? hx).1
          -- the sign of a zero is the wide float's
          exact ⟨finite negative n d hn,
            narrow?_eq_some.2 (convert_finite (by decide) hn hc hvalue.symm negative)⟩
      | _ => cases hy
  | _ => cases hx

theorem number?_ofInt (hF : 0 < F.precision) {n : Int} {d : Binary F}
    (h : d.number? = some (n : ℚ)) : (ofInt n : Binary F).number? = some (n : ℚ) := by
  cases d with
  | finite negative m e hc =>
      obtain ⟨habs, -⟩ := natAbs_of_number? h
      rw [ofInt, round_of_canonical hF hc one_ne_zero (by rw [habs, Nat.cast_one, one_mul]),
        number?, ← habs]
      rcases lt_or_ge n 0 with hn | hn
      · rw [decide_eq_true hn, if_pos rfl, Nat.cast_natAbs, abs_of_neg hn]
        push_cast
        rw [neg_neg]
      · rw [decide_eq_false (by omega), if_neg (by simp), Nat.cast_natAbs, abs_of_nonneg hn]
  | _ => cases h

theorem number?_round_signed (negative : Bool) (k : Nat) :
    (round negative k 1 : Double).number? =
      (ofInt (if negative then -k else k) : Double).number? := by
  by_cases hk : k = 0
  · subst hk
    have hzero (sign : Bool) : (round sign 0 1 : Double).number? = some 0 := by
      have hc : Format.double.Canonical 0 (-1074) := by decide
      rw [round_of_canonical (by decide) hc one_ne_zero (by simp), number?]
      simp
    cases negative <;> exact (hzero _).trans (hzero false).symm
  · have hpos : 0 < k := Nat.pos_of_ne_zero hk
    have hsign : decide ((if negative then -(k : Int) else k) < 0) = negative := by
      cases negative
      · simp
      · simpa using hpos
    have habs : (if negative then -(k : Int) else k).natAbs = k := by
      cases negative <;> simp
    rw [ofInt, hsign, habs]

end DataTree.Binary
