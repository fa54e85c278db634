import ScalarLowering.Proofs.Binary.Order

set_option autoImplicit false

/- Whole numbers as binary numbers. A whole number with more bits than a
significand has becomes a multiple of a power of two, which is the nearest one. -/

namespace ScalarLowering

/-- `den * quotient` is the multiple of `den` nearest to `num`; of two equally near ones it is the
one with the even quotient. -/
structure NearestMultiple (num den quotient : Nat) : Prop where
  near : 2 * ((den * quotient : Nat) - num : Int).natAbs ≤ den
  even : 2 * ((den * quotient : Nat) - num : Int).natAbs = den → quotient % 2 = 0

theorem log2_mul_two_pow {n : Nat} (nonzero : n ≠ 0) (exponent : Nat) :
    (n * 2 ^ exponent).log2 = n.log2 + exponent := by
  rw [Nat.log2_eq_iff (Nat.mul_ne_zero nonzero (Nat.two_pow_pos exponent).ne')]
  constructor
  · rw [Nat.pow_add]
    exact Nat.mul_le_mul_right _ (Nat.log2_self_le nonzero)
  · rw [Nat.add_right_comm, Nat.pow_add]
    exact Nat.mul_lt_mul_of_pos_right Nat.lt_log2_self (Nat.two_pow_pos exponent)

namespace Binary

theorem roundHalfEven_nearest (num : Nat) {den : Nat} (positive : 0 < den) :
    NearestMultiple num den (roundHalfEven num den) := by
  have parts := Nat.div_add_mod num den
  have rest := Nat.mod_lt num positive
  rcases roundHalfEven_cases num den with ⟨down, near, even⟩ | ⟨up, near, even⟩
  · have distance : ((den * (num / den) : Nat) - num : Int).natAbs = num % den := by omega
    rw [down]
    exact ⟨distance.symm ▸ near, distance.symm ▸ even⟩
  · have distance : ((den * (num / den + 1) : Nat) - num : Int).natAbs = den - num % den := by
      rw [Nat.mul_succ]
      omega
    rw [up]
    constructor
    · rw [distance]
      omega
    · rw [distance]
      exact fun tied => even (by omega)

theorem roundHalfEven_mul_right (num den : Nat) {factor : Nat} (positive : 0 < factor) :
    roundHalfEven (num * factor) (den * factor) = roundHalfEven num den := by
  have less : 2 * (num % den * factor) < den * factor ↔ 2 * (num % den) < den := by
    rw [← Nat.mul_assoc, Nat.mul_lt_mul_right positive]
  have tied : 2 * (num % den * factor) = den * factor ↔ 2 * (num % den) = den := by
    rw [← Nat.mul_assoc, Nat.mul_left_inj positive.ne']
  rw [roundHalfEven, roundHalfEven, Nat.mul_div_mul_right _ _ positive, Nat.mul_mod_mul_right]
  simp only [less, tied]

variable {p : Precision} {n : Nat}

theorem ne_zero_of_long (long : p.fractionBits ≤ n.log2) : n ≠ 0 := by
  rintro rfl
  cases p <;> cases long

/-- The significand of a long whole number counts the multiples of a power of two. -/
theorem roundMagnitude_whole (long : p.fractionBits ≤ n.log2) :
    roundMagnitude p (n * p.unitsPerOne) 1 =
      min p.infinity ((n.log2 - p.fractionBits + p.unitExponent) * p.fractionCount +
        roundHalfEven n (2 ^ (n.log2 - p.fractionBits))) := by
  have shift : (n * p.unitsPerOne).log2 - p.fractionBits =
      n.log2 - p.fractionBits + p.unitExponent := by
    rw [unitsPerOne_eq, log2_mul_two_pow (ne_zero_of_long long), Nat.sub_add_comm long]
  rw [roundMagnitude, Nat.div_one, shift, Nat.one_mul, Nat.pow_eq, Nat.pow_add, unitsPerOne_eq,
    roundHalfEven_mul_right _ _ (Nat.two_pow_pos p.unitExponent)]

/-- What it counts them with is a significand, which may be carried. -/
theorem significand_whole (long : p.fractionBits ≤ n.log2) :
    p.fractionCount ≤ roundHalfEven n (2 ^ (n.log2 - p.fractionBits)) ∧
      roundHalfEven n (2 ^ (n.log2 - p.fractionBits)) ≤ 2 * p.fractionCount := by
  obtain ⟨below, normal⟩ := scaled_quotient p n
  have large : p.fractionCount ≤ n / 2 ^ (n.log2 - p.fractionBits) := by
    rcases normal with none | normal
    · rw [none, Nat.pow_zero, Nat.div_one]
      exact (Nat.pow_le_pow_right (by decide) long).trans
        (Nat.log2_self_le (ne_zero_of_long long))
    · exact normal
  rcases roundHalfEven_cases n (2 ^ (n.log2 - p.fractionBits)) with ⟨down, _⟩ | ⟨up, _⟩
  · rw [down]
    exact ⟨large, below.le⟩
  · rw [up]
    exact ⟨Nat.le_succ_of_le large, below⟩

/-- How far a long whole number stays below infinity is told by its exponent. -/
theorem rounded_whole_finite (negative : Bool) (long : p.fractionBits ≤ n.log2)
    (room : n.log2 - p.fractionBits + p.unitExponent + 2 < Nat.pow 2 p.exponentBits - 1) :
    (rounded p negative (n * p.unitsPerOne) 1).magnitude < p.infinity := by
  have carried := (significand_whole long).2
  calc roundMagnitude p (n * p.unitsPerOne) 1
    _ ≤ (n.log2 - p.fractionBits + p.unitExponent) * p.fractionCount +
        roundHalfEven n (2 ^ (n.log2 - p.fractionBits)) :=
      (roundMagnitude_whole long).trans_le (Nat.min_le_right ..)
    _ ≤ (n.log2 - p.fractionBits + p.unitExponent + 2) * p.fractionCount := by
      rw [Nat.add_mul _ 2]
      exact Nat.add_le_add_left carried _
    _ < p.infinity := Nat.mul_lt_mul_of_pos_right room (fractionCount_pos p)

/-- A long whole number below infinity is rounded to a whole number. -/
theorem truncate_rounded_whole (long : p.fractionBits ≤ n.log2)
    (finite : (rounded p false (n * p.unitsPerOne) 1).magnitude < p.infinity) :
    (rounded p false (n * p.unitsPerOne) 1).truncate =
      (2 ^ (n.log2 - p.fractionBits) * roundHalfEven n (2 ^ (n.log2 - p.fractionBits)) : Nat) := by
  obtain ⟨normal, le⟩ := significand_whole long
  have magnitude : (rounded p false (n * p.unitsPerOne) 1).magnitude =
      (n.log2 - p.fractionBits + p.unitExponent) * p.fractionCount +
        roundHalfEven n (2 ^ (n.log2 - p.fractionBits)) := by
    have same := roundMagnitude_whole long
    have below : roundMagnitude p (n * p.unitsPerOne) 1 < p.infinity := finite
    rw [same] at below
    exact same.trans (Nat.min_eq_right (by omega))
  have units : 0 < 2 ^ p.unitExponent := Nat.two_pow_pos p.unitExponent
  rw [truncate, Binary.units, magnitude, unitsOf_scaled le (.inr normal), Nat.pow_add,
    ← Nat.mul_assoc, unitsPerOne_eq, Nat.mul_div_cancel _ units,
    Nat.mul_comm (2 ^ (n.log2 - p.fractionBits))]
  rfl

/-- Digits without an exponent are a whole number. -/
theorem ofDecimal_whole (p : Precision) (negative : Bool) (nonzero : n ≠ 0) :
    ofDecimal p negative ⟨n, 0⟩ = rounded p negative (n * p.unitsPerOne) 1 := by
  have finite : ¬ (400 : Int) ≤ 0 := by decide
  have within : ¬ (n.log2 : Int) + p.unitExponent + 2 ≤ 3 * -0 := by omega
  rw [ofDecimal, if_neg nonzero, if_neg finite, if_neg within]
  simp

theorem truncateWithin_of_finite {x : Binary p} (finite : x.magnitude < p.infinity)
    (low high : Int) : x.truncateWithin low high = max low (min high x.truncate) := by
  rw [truncateWithin, isNaN_of_finite finite, isInfinite_of_finite finite]
  rfl

theorem truncateWithin_range (x : Binary p) {low high : Int} (lower : low ≤ 0) (upper : 0 ≤ high) :
    low ≤ x.truncateWithin low high ∧ x.truncateWithin low high ≤ high := by
  unfold truncateWithin
  split_ifs <;> omega

end Binary

end ScalarLowering
