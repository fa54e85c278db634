import Mathlib.Algebra.Order.Field.Rat
import Mathlib.Tactic.FieldSimp
import Mathlib.Tactic.Linarith
import Mathlib.Tactic.Positivity
import Mathlib.Tactic.Ring
import ScalarLowering.Binary.Decimal

set_option autoImplicit false

/- Rounding is correct. What `roundMagnitude` returns lies nearest to the exact
quotient among all magnitudes up to infinity, which counts as the number that
would follow the greatest finite one; of two equally near magnitudes it returns
the even one. No other magnitude has both properties. -/

namespace ScalarLowering

/-- The number that a decimal stands for. -/
def Decimal.value (d : Decimal) : ℚ := d.coefficient * 10 ^ d.exponent

namespace Decimal

theorem value_of_nonneg {c n : Nat} {exponent : Int} (eq : exponent = n) :
    value ⟨c, exponent⟩ = c * 10 ^ n := by
  rw [value, eq, zpow_natCast]

theorem value_of_nonpos {c n : Nat} {exponent : Int} (eq : -exponent = n) :
    value ⟨c, exponent⟩ = c / 10 ^ n := by
  rw [value, ← neg_neg exponent, eq, zpow_neg, zpow_natCast, div_eq_mul_inv]

theorem value_eq_div (d : Decimal) :
    d.value = (d.coefficient * 10 ^ d.exponent.toNat : Nat) / (10 ^ (-d.exponent).toNat : Nat) := by
  obtain ⟨c, exponent⟩ := d
  rcases Int.le_total 0 exponent with nonneg | nonpos
  · rw [value_of_nonneg (Int.toNat_of_nonneg nonneg).symm,
      Int.toNat_of_nonpos (Int.neg_nonpos_of_nonneg nonneg)]
    simp
  · have negated := Int.neg_nonneg_of_nonpos nonpos
    rw [value_of_nonpos (Int.toNat_of_nonneg negated).symm, Int.toNat_of_nonpos nonpos]
    simp

/-- A decimal other than zero with this exponent is at least `10 ^ 400`. -/
theorem le_value_of_exponent {d : Decimal} (nonzero : d.coefficient ≠ 0)
    (large : 400 ≤ d.exponent) : 10 ^ 400 ≤ d.value := by
  have power : (10 : ℚ) ^ (400 : Int) ≤ 10 ^ d.exponent :=
    zpow_le_zpow_right₀ (by norm_num) large
  have digit : (1 : ℚ) ≤ d.coefficient := Nat.one_le_cast.mpr (Nat.pos_of_ne_zero nonzero)
  exact power.trans (le_mul_of_one_le_left (zpow_nonneg (by norm_num) _) digit)

/-- A decimal with so few digits for its exponent is at most half of `2 ^ -units`, since
`2 ^ (3 * n) ≤ 10 ^ n`. -/
theorem value_le_of_log2 {d : Decimal} {units : Nat}
    (small : (d.coefficient.log2 : Int) + units + 2 ≤ 3 * -d.exponent) :
    2 * d.value ≤ 1 / (2 ^ units : Nat) := by
  obtain ⟨c, exponent⟩ := d
  dsimp only at small
  obtain ⟨n, eq⟩ : ∃ n : Nat, -exponent = n := Int.eq_ofNat_of_zero_le (by omega)
  have digits : c < 2 ^ (c.log2 + 1) := Nat.lt_log2_self
  have bound : 2 * c * 2 ^ units ≤ 10 ^ n :=
    calc 2 * c * 2 ^ units
      _ ≤ 2 * 2 ^ (c.log2 + 1) * 2 ^ units := by gcongr
      _ = 2 ^ (c.log2 + units + 2) := by ring
      _ ≤ 2 ^ (3 * n) := Nat.pow_le_pow_right (by decide) (by omega)
      _ = 8 ^ n := by rw [Nat.pow_mul]
      _ ≤ 10 ^ n := Nat.pow_le_pow_left (by decide) n
  rw [value_of_nonpos eq, mul_div_assoc', div_le_div_iff₀ (by positivity) (by positivity), one_mul]
  exact_mod_cast bound

end Decimal

namespace Binary

variable {p : Precision}

/-- The number that a magnitude up to infinity stands for. -/
def valueOf (p : Precision) (magnitude : Nat) : ℚ := unitsOf p magnitude / p.unitsPerOne

/-- How far the value of a magnitude lies from `q`. -/
def gap (p : Precision) (q : ℚ) (magnitude : Nat) : ℚ := |valueOf p magnitude - q|

/-- A magnitude to which `q` may be rounded: none is nearer, and it is even if another one is
equally near. -/
structure NearestMagnitude (p : Precision) (q : ℚ) (magnitude : Nat) : Prop where
  le_infinity : magnitude ≤ p.infinity
  nearest : ∀ other ≤ p.infinity, gap p q magnitude ≤ gap p q other
  even : ∀ other ≤ p.infinity, other ≠ magnitude → gap p q magnitude = gap p q other →
    magnitude % 2 = 0

/-- `x` is the number nearest to `q` under the given sign. -/
structure IsNearest (x : Binary p) (negative : Bool) (q : ℚ) : Prop where
  sign : x.negative = negative
  magnitude : NearestMagnitude p q x.magnitude

theorem fractionCount_pos (p : Precision) : 0 < p.fractionCount := Nat.pow_pos (by decide)

theorem unitsPerOne_pos (p : Precision) : (0 : ℚ) < p.unitsPerOne := by
  exact_mod_cast show 0 < p.unitsPerOne from Nat.pow_pos (by decide)

/-- A significand that is carried to the next doubling still counts its units. -/
theorem unitsOf_scaled {shift significand : Nat} (le : significand ≤ 2 * p.fractionCount)
    (normal : shift = 0 ∨ p.fractionCount ≤ significand) :
    unitsOf p (shift * p.fractionCount + significand) = significand * 2 ^ shift := by
  have positive := fractionCount_pos p
  rcases Nat.lt_or_ge significand p.fractionCount with small | large
  · obtain rfl : shift = 0 := normal.resolve_right (by omega)
    rw [Nat.zero_mul, Nat.zero_add, unitsOf, Nat.div_eq_of_lt small, Nat.mod_eq_of_lt small]
    simp
  · rcases Nat.lt_or_eq_of_le le with inside | rfl
    · obtain ⟨fraction, rfl⟩ := Nat.exists_eq_add_of_le large
      have below : fraction < p.fractionCount := by omega
      have whole : shift * p.fractionCount + (p.fractionCount + fraction) =
          fraction + p.fractionCount * (shift + 1) := by ring
      rw [whole, unitsOf, Nat.add_mul_div_left _ _ positive, Nat.add_mul_mod_self_left,
        Nat.div_eq_of_lt below, Nat.mod_eq_of_lt below]
      simp
    · have whole : shift * p.fractionCount + 2 * p.fractionCount =
          p.fractionCount * (shift + 2) := by ring
      rw [whole, unitsOf, Nat.mul_div_cancel_left _ positive, Nat.mul_mod_right]
      simp [Nat.pow_succ]
      ring

/-- Every magnitude is a shift and a significand that is not yet carried. -/
theorem exists_scaled (p : Precision) (magnitude : Nat) : ∃ shift significand,
    magnitude = shift * p.fractionCount + significand ∧ significand < 2 * p.fractionCount ∧
      (shift = 0 ∨ p.fractionCount ≤ significand) := by
  have positive := fractionCount_pos p
  have parts := Nat.div_add_mod' magnitude p.fractionCount
  have below := Nat.mod_lt magnitude positive
  cases exponent : magnitude / p.fractionCount with
  | zero =>
    rw [exponent] at parts
    exact ⟨0, magnitude, by omega, by omega, .inl rfl⟩
  | succ shift =>
    rw [exponent, Nat.succ_mul] at parts
    exact ⟨shift, p.fractionCount + magnitude % p.fractionCount, by omega, by omega,
      .inr (by omega)⟩

theorem unitsOf_strictMono (p : Precision) : StrictMono (unitsOf p) := by
  refine strictMono_nat_of_lt_succ fun magnitude => ?_
  obtain ⟨shift, significand, rfl, below, normal⟩ := exists_scaled p magnitude
  rw [unitsOf_scaled below.le normal, Nat.add_assoc,
    unitsOf_scaled below (normal.imp_right Nat.le_succ_of_le)]
  exact Nat.mul_lt_mul_of_pos_right (Nat.lt_succ_self _) (Nat.two_pow_pos shift)

theorem valueOf_strictMono (p : Precision) : StrictMono (valueOf p) := by
  intro low high less
  have units := unitsOf_strictMono p less
  exact div_lt_div_of_pos_right (by exact_mod_cast units) (unitsPerOne_pos p)

theorem valueOf_zero (p : Precision) : valueOf p 0 = 0 := by
  rw [valueOf, ← Nat.zero_mul p.fractionCount, ← Nat.add_zero (0 * p.fractionCount),
    unitsOf_scaled (Nat.zero_le _) (.inl rfl)]
  simp

theorem gap_of_le {q : ℚ} {m : Nat} (below : valueOf p m ≤ q) : gap p q m = q - valueOf p m := by
  rw [gap, abs_sub_comm, abs_of_nonneg (sub_nonneg.mpr below)]

theorem gap_of_ge {q : ℚ} {m : Nat} (above : q ≤ valueOf p m) : gap p q m = valueOf p m - q :=
  abs_of_nonneg (sub_nonneg.mpr above)

theorem gap_lt_of_lt_of_le {q : ℚ} {m n : Nat} (less : m < n) (below : valueOf p n ≤ q) :
    gap p q n < gap p q m := by
  have values := valueOf_strictMono p less
  rw [gap_of_le below, gap_of_le (values.le.trans below)]
  exact sub_lt_sub_left values q

theorem gap_lt_of_lt_of_ge {q : ℚ} {m n : Nat} (less : m < n) (above : q ≤ valueOf p m) :
    gap p q m < gap p q n := by
  have values := valueOf_strictMono p less
  rw [gap_of_ge above, gap_of_ge (above.trans values.le)]
  exact sub_lt_sub_right values q

/-- Only the two magnitudes around `q` matter. -/
theorem NearestMagnitude.of_bracket {q : ℚ} {low m : Nat} (le : m ≤ p.infinity)
    (below : valueOf p low ≤ q) (above : q ≤ valueOf p (low + 1)) (either : m = low ∨ m = low + 1)
    (closest : gap p q m ≤ gap p q low ∧ gap p q m ≤ gap p q (low + 1))
    (even : gap p q low = gap p q (low + 1) → m % 2 = 0) : NearestMagnitude p q m where
  le_infinity := le
  nearest := by
    intro other _
    rcases Nat.lt_trichotomy other low with less | rfl | greater
    · exact closest.1.trans (gap_lt_of_lt_of_le less below).le
    · exact closest.1
    · rcases Nat.lt_or_eq_of_le greater with further | rfl
      · exact closest.2.trans (gap_lt_of_lt_of_ge further above).le
      · exact closest.2
  even := by
    intro other _ different same
    -- a magnitude outside the bracket is strictly further away, so `other` is its second end
    rcases Nat.lt_trichotomy other low with less | rfl | greater
    · exact absurd same (closest.1.trans_lt (gap_lt_of_lt_of_le less below)).ne
    · obtain rfl := either.resolve_left (Ne.symm different)
      exact even same.symm
    · rcases Nat.lt_or_eq_of_le greater with further | rfl
      · exact absurd same (closest.2.trans_lt (gap_lt_of_lt_of_ge further above)).ne
      · obtain rfl := either.resolve_right (Ne.symm different)
        exact even same

/-- Beyond infinity nothing is nearer than infinity. -/
theorem NearestMagnitude.infinity {q : ℚ} (beyond : valueOf p p.infinity ≤ q) :
    NearestMagnitude p q p.infinity where
  le_infinity := le_rfl
  nearest := by
    intro other le
    rcases Nat.lt_or_eq_of_le le with less | rfl
    · exact (gap_lt_of_lt_of_le less beyond).le
    · exact le_rfl
  even := by
    intro other le different same
    exact absurd same (gap_lt_of_lt_of_le (Nat.lt_of_le_of_ne le different) beyond).ne

/-- Two different even magnitudes have an odd one between them, which would be nearer. -/
theorem NearestMagnitude.not_lt {q : ℚ} {m n : Nat} (first : NearestMagnitude p q m)
    (second : NearestMagnitude p q n) : ¬ m < n := by
  intro less
  have same : gap p q m = gap p q n :=
    le_antisymm (first.nearest n second.le_infinity) (second.nearest m first.le_infinity)
  have evenFirst := first.even n second.le_infinity less.ne' same
  have evenSecond := second.even m first.le_infinity less.ne same.symm
  have between : m + 1 < n := by omega
  have le : m + 1 ≤ p.infinity := between.le.trans second.le_infinity
  rcases le_total q (valueOf p (m + 1)) with above | below
  · have nearer := gap_lt_of_lt_of_ge between above
    rw [← same] at nearer
    exact absurd (first.nearest (m + 1) le) (not_le.mpr nearer)
  · have nearer := gap_lt_of_lt_of_le (Nat.lt_succ_self m) below
    exact absurd (first.nearest (m + 1) le) (not_le.mpr nearer)

theorem NearestMagnitude.unique {q : ℚ} {m n : Nat} (first : NearestMagnitude p q m)
    (second : NearestMagnitude p q n) : m = n :=
  Nat.le_antisymm (Nat.not_lt.mp (second.not_lt first)) (Nat.not_lt.mp (first.not_lt second))

theorem IsNearest.unique {x y : Binary p} {negative : Bool} {q : ℚ} (first : x.IsNearest negative q)
    (second : y.IsNearest negative q) : x = y := by
  obtain ⟨_, m, _⟩ := x
  obtain ⟨_, n, _⟩ := y
  obtain rfl : m = n := first.magnitude.unique second.magnitude
  obtain rfl := first.sign
  obtain rfl := second.sign
  rfl

/-- The choice between two neighbours by the part `rest / spacing` of the way that lies behind
the lower one. -/
theorem NearestMagnitude.of_remainder {q scale : ℚ} {low m rest spacing : Nat}
    (positive : 0 < scale) (inside : rest ≤ spacing)
    (toLow : q - valueOf p low = rest / scale)
    (toHigh : valueOf p (low + 1) - q = (spacing - rest) / scale)
    (choice : (m = low ∧ 2 * rest ≤ spacing ∧ (2 * rest = spacing → low % 2 = 0)) ∨
      (m = low + 1 ∧ spacing ≤ 2 * rest ∧ (2 * rest = spacing → (low + 1) % 2 = 0))) :
    NearestMagnitude p q (min p.infinity m) := by
  have left : (0 : ℚ) ≤ spacing - rest := sub_nonneg.mpr (Nat.cast_le.mpr inside)
  have below : valueOf p low ≤ q :=
    sub_nonneg.mp (toLow ▸ div_nonneg (Nat.cast_nonneg rest) positive.le)
  have above : q ≤ valueOf p (low + 1) := sub_nonneg.mp (toHigh ▸ div_nonneg left positive.le)
  rw [← gap_of_le below] at toLow
  rw [← gap_of_ge above] at toHigh
  have lower : gap p q low ≤ gap p q (low + 1) ↔ 2 * rest ≤ spacing := by
    rw [toLow, toHigh, div_le_div_iff_of_pos_right positive, le_sub_iff_add_le, ← two_mul]
    exact_mod_cast Iff.rfl
  have upper : gap p q (low + 1) ≤ gap p q low ↔ spacing ≤ 2 * rest := by
    rw [toLow, toHigh, div_le_div_iff_of_pos_right positive, sub_le_iff_le_add, ← two_mul]
    exact_mod_cast Iff.rfl
  have tied (same : gap p q low = gap p q (low + 1)) : 2 * rest = spacing :=
    Nat.le_antisymm (lower.mp same.le) (upper.mp same.ge)
  rcases Nat.lt_or_ge low p.infinity with finite | beyond
  · rcases choice with ⟨rfl, nearer, even⟩ | ⟨rfl, nearer, even⟩
    · rw [Nat.min_eq_right finite.le]
      exact .of_bracket finite.le below above (.inl rfl) ⟨le_rfl, lower.mpr nearer⟩
        fun same => even (tied same)
    · rw [Nat.min_eq_right (Nat.succ_le_of_lt finite)]
      exact .of_bracket finite below above (.inr rfl) ⟨upper.mpr nearer, le_rfl⟩
        fun same => even (tied same)
  · have saturated : min p.infinity m = p.infinity := by omega
    rw [saturated]
    exact .infinity (((valueOf_strictMono p).monotone beyond).trans below)

/-- The shift by which `roundMagnitude` scales a quotient down leaves it a normal significand. -/
theorem scaled_quotient (p : Precision) (quotient : Nat) :
    quotient / 2 ^ (quotient.log2 - p.fractionBits) < 2 * p.fractionCount ∧
      (quotient.log2 - p.fractionBits = 0 ∨
        p.fractionCount ≤ quotient / 2 ^ (quotient.log2 - p.fractionBits)) := by
  have double : 2 * p.fractionCount = 2 ^ (p.fractionBits + 1) := (Nat.pow_succ' ..).symm
  have above : quotient < 2 ^ (quotient.log2 + 1) := Nat.lt_log2_self
  rcases le_or_gt quotient.log2 p.fractionBits with small | large
  · have none : quotient.log2 - p.fractionBits = 0 := Nat.sub_eq_zero_of_le small
    rw [none, Nat.pow_zero, Nat.div_one, double]
    exact ⟨above.trans_le (Nat.pow_le_pow_right (by decide) (by omega)), .inl rfl⟩
  · obtain ⟨shift, exponent⟩ := Nat.exists_eq_add_of_le large.le
    have nonzero : quotient ≠ 0 := by
      rintro rfl
      cases large
    have below := Nat.log2_self_le nonzero
    rw [exponent] at above below
    rw [exponent, Nat.add_sub_cancel_left, double]
    constructor
    · refine Nat.div_lt_of_lt_mul ?_
      rwa [← Nat.pow_add, show shift + (p.fractionBits + 1) = p.fractionBits + shift + 1 by omega]
    · right
      rwa [Nat.le_div_iff_mul_le (Nat.two_pow_pos shift), Precision.fractionCount, Nat.pow_eq,
        ← Nat.pow_add]

theorem roundHalfEven_cases (num den : Nat) :
    (roundHalfEven num den = num / den ∧ 2 * (num % den) ≤ den ∧
        (2 * (num % den) = den → num / den % 2 = 0)) ∨
      (roundHalfEven num den = num / den + 1 ∧ den ≤ 2 * (num % den) ∧
        (2 * (num % den) = den → (num / den + 1) % 2 = 0)) := by
  by_cases down : 2 * (num % den) < den ∨ (2 * (num % den) = den ∧ num / den % 2 = 0)
  · exact .inl ⟨if_pos down, by omega, by omega⟩
  · exact .inr ⟨if_neg down, by omega, by omega⟩

/-- `num / den` units lie between two neighbours, at distances that the remainder gives. -/
theorem gaps_of_quotient {num den shift : Nat} (positive : 0 < den)
    (below : num / (den * 2 ^ shift) < 2 * p.fractionCount)
    (normal : shift = 0 ∨ p.fractionCount ≤ num / (den * 2 ^ shift)) :
    (num : ℚ) / (den * p.unitsPerOne) -
          valueOf p (shift * p.fractionCount + num / (den * 2 ^ shift)) =
        (num % (den * 2 ^ shift) : Nat) / (den * p.unitsPerOne) ∧
      valueOf p (shift * p.fractionCount + num / (den * 2 ^ shift) + 1) -
          (num : ℚ) / (den * p.unitsPerOne) =
        ((den * 2 ^ shift : Nat) - (num % (den * 2 ^ shift) : Nat)) / (den * p.unitsPerOne) := by
  have units := (unitsPerOne_pos p).ne'
  have denominator : (den : ℚ) ≠ 0 := Nat.cast_ne_zero.mpr positive.ne'
  have parts : (num : ℚ) =
      den * 2 ^ shift * (num / (den * 2 ^ shift) : Nat) + (num % (den * 2 ^ shift) : Nat) := by
    exact_mod_cast (Nat.div_add_mod num (den * 2 ^ shift)).symm
  constructor
  · rw [valueOf, unitsOf_scaled below.le normal]
    field_simp
    push_cast
    linarith
  · rw [Nat.add_assoc, valueOf, unitsOf_scaled below (normal.imp_right Nat.le_succ_of_le)]
    field_simp
    push_cast
    linarith

theorem roundMagnitude_nearest (p : Precision) (num : Nat) {den : Nat} (positive : 0 < den) :
    NearestMagnitude p (num / (den * p.unitsPerOne)) (roundMagnitude p num den) := by
  obtain ⟨significand, normal⟩ := scaled_quotient p (num / den)
  unfold roundMagnitude
  generalize (num / den).log2 - p.fractionBits = shift at significand normal ⊢
  rw [Nat.div_div_eq_div_mul] at significand normal
  have spacing : 0 < den * 2 ^ shift := Nat.mul_pos positive (Nat.two_pow_pos shift)
  have scale : (0 : ℚ) < den * p.unitsPerOne :=
    mul_pos (Nat.cast_pos.mpr positive) (unitsPerOne_pos p)
  obtain ⟨toLow, toHigh⟩ := gaps_of_quotient positive significand normal
  refine .of_remainder scale (Nat.mod_lt num spacing).le toLow toHigh ?_
  -- the shifted field is a multiple of an even count, so parity is the significand's
  have parity (n : Nat) : (shift * p.fractionCount + n) % 2 = n % 2 := by
    have even : p.fractionCount % 2 = 0 := by cases p <;> decide
    rw [Nat.add_mod, Nat.mul_mod, even]
    simp
  rw [Nat.add_assoc, parity, parity]
  exact (roundHalfEven_cases num (den * 2 ^ shift)).imp
    (And.imp_left (congrArg _)) (And.imp_left (congrArg _))

theorem rounded_isNearest (p : Precision) (negative : Bool) (num : Nat) {den : Nat}
    (positive : 0 < den) :
    (rounded p negative num den).IsNearest negative (num / (den * p.unitsPerOne)) :=
  ⟨rfl, roundMagnitude_nearest p num positive⟩

/-- Up to half a unit zero is nearest. -/
theorem NearestMagnitude.zero {q : ℚ} (nonneg : 0 ≤ q) (small : 2 * q ≤ 1 / p.unitsPerOne) :
    NearestMagnitude p q 0 := by
  have positive := fractionCount_pos p
  have one : valueOf p 1 = 1 / p.unitsPerOne := by
    rw [valueOf, ← Nat.zero_add 1, ← Nat.zero_mul p.fractionCount,
      unitsOf_scaled (by omega) (.inl rfl)]
    simp
  have below : valueOf p 0 ≤ q := (valueOf_zero p).le.trans nonneg
  have above : q ≤ valueOf p (0 + 1) := by
    rw [Nat.zero_add, one]
    linarith
  refine .of_bracket (Nat.zero_le _) below above (.inl rfl) ⟨le_rfl, ?_⟩ fun _ => rfl
  rw [gap_of_le below, gap_of_ge above, Nat.zero_add, valueOf_zero, one]
  linarith

theorem value_infinity_le (p : Precision) : valueOf p p.infinity ≤ 10 ^ 400 := by
  have units : unitsOf p p.infinity ≤ 10 ^ 400 * p.unitsPerOne := by cases p <;> decide +kernel
  rw [valueOf, div_le_iff₀ (unitsPerOne_pos p)]
  exact_mod_cast units

/-- Reading a decimal number gives the number nearest to it. -/
theorem ofDecimal_isNearest (p : Precision) (negative : Bool) (d : Decimal) :
    (ofDecimal p negative d).IsNearest negative d.value := by
  have nonneg : 0 ≤ d.value := mul_nonneg (Nat.cast_nonneg _) (zpow_nonneg (by norm_num) _)
  unfold ofDecimal
  split_ifs with none large small
  · refine ⟨rfl, .zero nonneg ?_⟩
    rw [Decimal.value, none, Nat.cast_zero, zero_mul, mul_zero]
    exact div_nonneg zero_le_one (unitsPerOne_pos p).le
  · exact ⟨rfl, .infinity ((value_infinity_le p).trans (Decimal.le_value_of_exponent none large))⟩
  · exact ⟨rfl, .zero nonneg (Decimal.value_le_of_log2 small)⟩
  · have nearest := rounded_isNearest p negative (d.coefficient * 10 ^ d.exponent.toNat *
      p.unitsPerOne) (Nat.pow_pos (n := (-d.exponent).toNat) (show 0 < 10 by decide))
    rwa [Nat.cast_mul _ p.unitsPerOne, mul_div_mul_right _ _ (unitsPerOne_pos p).ne',
      ← Decimal.value_eq_div] at nearest

end Binary

end ScalarLowering
