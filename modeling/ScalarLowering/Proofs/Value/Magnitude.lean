import ScalarLowering.Binary.Arithmetic
import ScalarLowering.Proofs.Value.Typing

set_option autoImplicit false

/- The absolute value of a number. For integers it is what negating the negative
ones computes. -/

namespace ScalarLowering

namespace Value

/-- The absolute value, at the width of the operand: the least integer of a signed type has none
there and stays as it is. The magnitude of a complex number is real. -/
def magnitude? : Value → Option Value
  | .bool _ => none
  | .int .signed w bits => some (.int .signed w (BitVec.ofNat w.bits bits.toInt.natAbs))
  | .int .unsigned w bits => some (.int .unsigned w bits)
  | .float p x => some (.float p x.abs)
  | .complex p re im => some (.float p (re.hypot im))

theorem magnitude?_isSome_of_isInt {v : Value} (int : v.type.isInt = true) :
    ∃ w, v.magnitude? = some w := by
  cases v with
  | int s w bits => cases s <;> exact ⟨_, rfl⟩
  | _ => cases int

theorem ofNat_natAbs_of_neg {n : Nat} {bits : BitVec n} (negative : bits.toInt < 0) :
    BitVec.ofNat n bits.toInt.natAbs = -bits := by
  have opposite : (bits.toInt.natAbs : Int) = -bits.toInt := by omega
  rw [← BitVec.ofInt_natCast, opposite, BitVec.ofInt_neg, BitVec.ofInt_toInt]

theorem ofNat_natAbs_of_nonneg {n : Nat} {bits : BitVec n} (positive : ¬ bits.toInt < 0) :
    BitVec.ofNat n bits.toInt.natAbs = bits := by
  have same : (bits.toInt.natAbs : Int) = bits.toInt := by omega
  rw [← BitVec.ofInt_natCast, same, BitVec.ofInt_toInt]

theorem zero_cast (s : Signedness) (w : IntWidth) :
    (ofLiteral (.int 0)).cast (.int s w) = .int s w 0 := by
  cases s <;> cases w <;> rfl

theorem compare?_lt_zero (s : Signedness) (w : IntWidth) (bits : BitVec w.bits) :
    (Value.int s w bits).compare? .lt (.int s w 0) = some (decide (s.read bits < 0)) := by
  have zero : s.read (0 : BitVec w.bits) = 0 := by cases s <;> simp [Signedness.read]
  have order : (compare (s.read bits) 0).isLT = decide (s.read bits < 0) := by
    rw [Bool.eq_iff_iff, Ordering.isLT_iff_eq_lt, Int.compare_eq_lt, decide_eq_true_iff]
  simp only [compare?, number, zero, Predicate.holds, order]

/-- The magnitude of an integer is the integer itself, or its opposite if it is below zero. -/
theorem magnitude?_of_isInt {v : Value} (int : v.type.isInt = true) :
    ∃ negative, v.compare? .lt ((ofLiteral (.int 0)).cast v.type) = some negative ∧
      v.magnitude? = if negative then v.neg? else some v := by
  cases v with
  | int s w bits =>
    refine ⟨decide (s.read bits < 0), ?_, ?_⟩
    · rw [type, zero_cast]
      exact compare?_lt_zero s w bits
    · cases s with
      | unsigned =>
        have positive : ¬ Signedness.unsigned.read bits < 0 := by
          simp only [Signedness.read]
          omega
        rw [decide_eq_false positive]
        rfl
      | signed =>
        by_cases negative : bits.toInt < 0
        · have below : Signedness.signed.read bits < 0 := negative
          rw [decide_eq_true below, magnitude?, ofNat_natAbs_of_neg negative]
          rfl
        · have positive : ¬ Signedness.signed.read bits < 0 := negative
          rw [decide_eq_false positive, magnitude?, ofNat_natAbs_of_nonneg negative]
          rfl
  | _ => cases int

end Value

end ScalarLowering
