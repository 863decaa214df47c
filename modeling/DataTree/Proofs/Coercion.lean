import DataTree.Proofs.Binary.Bits
import DataTree.Proofs.Primitive

namespace DataTree

open Binary

/-- The whole number that a scalar is: an integer its own, a double the one that it equals. -/
inductive Value.IsWhole : Value → Int → Prop
  | int (i : Int64) : IsWhole (.int i) i.toInt
  | double {x : Double} {n : Int} : x.number? = some (n : ℚ) → IsWhole (.double x) n

/-- Why an integer type refuses a scalar. -/
inductive IntType.Refuses (t : IntType) : Value → Fault → Prop
  | int {i : Int64} : ¬ t.Holds i.toInt →
      t.Refuses (.int i) (.numberOutOfRange (toString i.toInt) t.name)
  | double {x : Double} {n : Int} : x.number? = some (n : ℚ) → ¬ t.Holds n →
      t.Refuses (.double x) (.numberOutOfRange (Layout.plain.text x) t.name)
  | other {v : Value} : (∀ n, ¬ v.IsWhole n) → t.Refuses v (.typeMismatch t.name v.kind)

/-- What is exact, or else one fault, if nothing is. -/
inductive ExactOr {α : Type} (exact : α → Prop) (fault : Fault) : Except Fault α → Prop
  | exact {x : α} : exact x → ExactOr exact fault (.ok x)
  | refused : (∀ x, ¬ exact x) → ExactOr exact fault (.error fault)

/-- Floats of two formats that stand for the same, be it a number or not. -/
inductive Binary.Same {F G : Format} : Binary F → Binary G → Prop
  | nan : Same .nan .nan
  | infinity (negative : Bool) : Same (.infinity negative) (.infinity negative)
  | number {x : Binary F} {y : Binary G} {q : ℚ} :
      x.number? = some q → y.number? = some q → Same x y

section Integers

variable {t : IntType} {n : Int} {v : Value}

def Whole.ofInt64 (i : Int64) : Whole .int64 := ⟨i.toInt, IntType.holds_toInt i⟩

namespace Primitive

theorem intOfScalar_of_isWhole {w : Whole t} (h : v.IsWhole w.val) : intOfScalar t v = .ok w := by
  generalize hn : w.val = n at h
  cases h with
  | int i => exact intOfScalar_int hn.symm
  | double h => simp only [intOfScalar, toInt?_of_number? h, of?_toInt128 t h, ← hn, Whole.of?_val]

theorem intOfScalar_of_refuses {fault : Fault} (h : t.Refuses v fault) :
    intOfScalar t v = .error fault := by
  cases h with
  | int h => simp only [intOfScalar, Whole.of?_eq_none.2 h]
  | double hx h =>
      simp only [intOfScalar, toInt?_of_number? hx, of?_toInt128 t hx, Whole.of?_eq_none.2 h]
  | other h =>
      cases v with
      | leaf s =>
          cases s with
          | int i => exact absurd (.int i) (h i.toInt)
          | double x =>
              have hx : x.toInt? = none := by
                refine Option.eq_none_iff_forall_ne_some.2 fun n hn => ?_
                obtain ⟨-, k, hk⟩ := exists_of_toInt? hn
                exact h k (.double hk)
              simp only [intOfScalar, hx]
              rfl
          | _ => rfl
      | _ => rfl

theorem isWhole_or_refuses (t : IntType) (v : Value) :
    (∃ w : Whole t, v.IsWhole w.val) ∨ ∃ fault, t.Refuses v fault := by
  by_cases hwhole : ∃ n, v.IsWhole n
  · obtain ⟨n, hn⟩ := hwhole
    by_cases h : t.Holds n
    · exact .inl ⟨⟨n, h⟩, hn⟩
    · cases hn with
      | int i => exact .inr ⟨_, .int h⟩
      | double hx => exact .inr ⟨_, .double hx h⟩
  · exact .inr ⟨_, .other (not_exists.1 hwhole)⟩

theorem int_toScalar_of_toInt {w : Whole t} {i : Int64} (h : i.toInt = w.val) :
    (int t).toScalar w = .ok (.int i) := by
  simp only [toScalar, ← h, int64?_toInt]

theorem int_toScalar_of_not_holds {w : Whole t} (h : ¬ IntType.int64.Holds w.val) :
    (int t).toScalar w = .error (.numberOutOfRange (toString w.val) "int") := by
  have hnone : int64? w.val = none := if_neg h
  simp only [toScalar, hnone]

/-- Integers are coerced exactly: what is read is what the scalar is, everything else is refused,
and what is written is read back. -/
theorem integers_exact (t : IntType) :
    (∀ v : Value,
      (∀ w, (int t).ofScalar v = .ok w ↔ v.IsWhole w.val) ∧
        ∀ fault, (int t).ofScalar v = .error fault ↔ t.Refuses v fault) ∧
      ∀ w : Whole t,
        (∀ v, (int t).toScalar w = .ok v ↔ ∃ i : Int64, i.toInt = w.val ∧ v = .int i) ∧
          (∀ fault, (int t).toScalar w = .error fault ↔
            ¬ IntType.int64.Holds w.val ∧ fault = .numberOutOfRange (toString w.val) "int") ∧
          ∀ v, (int t).toScalar w = .ok v → (int t).ofScalar v = .ok w := by
  refine ⟨fun v => ?_, fun w => ?_⟩
  · exact result_iff (fun w => intOfScalar_of_isWhole) (fun fault => intOfScalar_of_refuses)
      (isWhole_or_refuses t v)
  · have htotal : (∃ v, ∃ i : Int64, i.toInt = w.val ∧ v = Value.int i) ∨
        ∃ fault, ¬ IntType.int64.Holds w.val ∧
          fault = Fault.numberOutOfRange (toString w.val) "int" := by
      by_cases h : IntType.int64.Holds w.val
      · exact .inl ⟨_, Int64.ofInt w.val, int64?_eq_some (if_pos h), rfl⟩
      · exact .inr ⟨_, h, rfl⟩
    obtain ⟨hok, herror⟩ := result_iff (r := (int t).toScalar w)
      (by rintro v ⟨i, hi, rfl⟩; exact int_toScalar_of_toInt hi)
      (by rintro fault ⟨h, rfl⟩; exact int_toScalar_of_not_holds h) htotal
    exact ⟨hok, herror, fun v hv => (ofScalar_toScalar hv).1⟩

/-- A double past the integers of a tree is one of the integers without a sign. -/
example : (int .nat64).ofScalar (.double (ofInt 0x8000000000000000)) =
    .ok ⟨0x8000000000000000, by decide⟩ := rfl

end Primitive

end Integers

section Floats

namespace Primitive

theorem same_of_narrow? {x : Double} {y : Single} (h : x.narrow? = some y) : Same y x := by
  obtain rfl := narrow?_eq_some.1 h
  cases y with
  | nan => exact .nan
  | infinity negative => exact .infinity negative
  | finite negative m e hc => exact .number rfl (number?_convert _)

theorem exists_narrow?_of_same {x : Double} {y : Single} (h : Same y x) :
    ∃ z : Single, x.narrow? = some z := by
  cases h with
  | nan => exact ⟨.nan, rfl⟩
  | infinity negative => exact ⟨.infinity negative, narrow?_eq_some.2 rfl⟩
  | number hy hx => exact exists_narrow? hx hy

theorem exactOr_of_option {α : Type} {exact : α → Prop} {fault : Fault} {r : Except Fault α}
    (o : Option α) (hsome : ∀ x, o = some x → exact x ∧ r = .ok x)
    (hnone : o = none → (∀ x, ¬ exact x) ∧ r = .error fault) : ExactOr exact fault r := by
  cases h : o with
  | some x =>
      obtain ⟨hx, rfl⟩ := hsome x h
      exact .exact hx
  | none =>
      obtain ⟨hx, rfl⟩ := hnone h
      exact .refused hx

theorem exactOr_ofInt? {F : Format} (hF : F.HasUnits) {i : Int64} {fault : Fault}
    {r : Except Fault (Binary F)} (hsome : ∀ d, ofInt? i.toInt = some d → r = .ok d)
    (hnone : ofInt? i.toInt = (none : Option (Binary F)) → r = .error fault) :
    ExactOr (fun d : Binary F => d.number? = some (i.toInt : ℚ)) fault r :=
  exactOr_of_option (ofInt? i.toInt) (fun d h => ⟨((ofInt?_eq_some hF).1 h).2, hsome d h⟩)
    fun h => ⟨not_exists.1 ((ofInt?_eq_none hF).1 h), hnone h⟩

theorem exactOr_double (i : Int64) :
    ExactOr (fun d : Double => d.number? = some (i.toInt : ℚ))
      (.numberOutOfRange (toString i.toInt) double.name) (double.ofScalar (.int i)) :=
  exactOr_ofInt? Format.hasUnits_double (fun d h => by simp only [ofScalar, doubleOfScalar, h])
    fun h => by simp only [ofScalar, doubleOfScalar, h]

theorem exactOr_single (i : Int64) :
    ExactOr (fun d : Single => d.number? = some (i.toInt : ℚ))
      (.numberOutOfRange (toString i.toInt) single.name) (single.ofScalar (.int i)) :=
  exactOr_ofInt? Format.hasUnits_single (fun d h => by simp only [ofScalar, singleOfScalar, h])
    fun h => by simp only [ofScalar, singleOfScalar, h]

theorem exactOr_narrow (x : Double) :
    ExactOr (fun y : Single => Same y x) (.numberOutOfRange (Layout.plain.text x) single.name)
      (single.ofScalar (.double x)) := by
  refine exactOr_of_option x.narrow? (fun y h => ?_) fun h => ?_
  · exact ⟨same_of_narrow? h, by simp only [ofScalar, singleOfScalar, h]⟩
  · refine ⟨fun y hy => ?_, by simp only [ofScalar, singleOfScalar, h]⟩
    obtain ⟨z, hz⟩ := exists_narrow?_of_same hy
    cases h.symm.trans hz

/-- An integer that is some double comes back from it, and a double that is an integer equals the
one that the integer is coerced to. -/
theorem int64_ofScalar_double {i : Int64} {d : Double} :
    (int .int64).ofScalar (.double d) = .ok (.ofInt64 i) ↔ d.number? = some (i.toInt : ℚ) := by
  constructor
  · intro h
    exact (number?_of_double (.inl rfl) h).symm
  · intro h
    exact intOfScalar_of_isWhole (w := .ofInt64 i) (.double h)

/-- Floats are coerced exactly: an integer to the float that it is, a double to the narrow float
that is the same, and what is refused is none. Between integers and doubles both ways are inverse. The
number of a float is what its bits denote, and every float has bits. -/
theorem floats_exact :
    (∀ i : Int64,
      ExactOr (fun d : Double => d.number? = some (i.toInt : ℚ))
          (.numberOutOfRange (toString i.toInt) double.name) (double.ofScalar (.int i)) ∧
        ExactOr (fun d : Single => d.number? = some (i.toInt : ℚ))
          (.numberOutOfRange (toString i.toInt) single.name) (single.ofScalar (.int i))) ∧
      (∀ x : Double,
        ExactOr (fun y : Single => Same y x) (.numberOutOfRange (Layout.plain.text x) single.name)
          (single.ofScalar (.double x))) ∧
      (∀ (i : Int64) (d : Double),
        (double.ofScalar (.int i) = .ok d → (int .int64).ofScalar (.double d) = .ok (.ofInt64 i)) ∧
          ((int .int64).ofScalar (.double d) = .ok (.ofInt64 i) →
            ∃ d' : Double, double.ofScalar (.int i) = .ok d' ∧ d'.equals d = true)) ∧
      ((∀ bits, (ofBits bits : Double).number? = Format.double.dyadic? bits) ∧
        ∀ x : Double, ofBits x.toBits = x) ∧
      (∀ bits, (ofBits bits : Single).number? = Format.single.dyadic? bits) ∧
        ∀ x : Single, ofBits x.toBits = x := by
  have hdouble := Format.interchange_double
  have hsingle := Format.interchange_single
  refine ⟨fun i => ⟨exactOr_double i, exactOr_single i⟩, exactOr_narrow, fun i d => ⟨?_, ?_⟩,
    ⟨number?_ofBits hdouble, ofBits_toBits hdouble⟩, number?_ofBits hsingle, ofBits_toBits hsingle⟩
  · intro h
    exact int64_ofScalar_double.2 (number?_of_int (.inr rfl) h)
  · intro h
    have hd := int64_ofScalar_double.1 h
    have hi := exactOr_double i
    generalize double.ofScalar (.int i) = r at hi
    cases hi with
    | exact hx => exact ⟨_, rfl, equals_of_number? (by decide) hx hd⟩
    | refused hnone => exact absurd hd (hnone d)

/-- The greatest integer is rounded up, to a number past its type. -/
example : double.ofScalar (.int 9223372036854775807) =
    .error (.numberOutOfRange "9223372036854775807" "f64") := rfl

end Primitive

end Floats

end DataTree
