import Mathlib.Order.WithBot
import ScalarLowering.Proofs.Binary.Nearest

set_option autoImplicit false

/- The order of floating-point numbers is the order of the values they stand for.
The infinities lie beyond all other values, both zeros have one value, and a NaN
has none. A single-precision number keeps its value in double precision, where
comparisons are made. -/

namespace ScalarLowering

namespace Binary

variable {p : Precision} {x y : Binary p} {m n : Nat}

theorem valueOf_nonneg (p : Precision) (m : Nat) : 0 ≤ valueOf p m :=
  div_nonneg (Nat.cast_nonneg _) (unitsPerOne_pos p).le

theorem valueOf_pos (positive : 0 < m) : 0 < valueOf p m := by
  rw [← valueOf_zero p]
  exact valueOf_strictMono p positive

/-- The value of a finite number. -/
def exactValue (x : Binary p) : ℚ :=
  if x.negative then -valueOf p x.magnitude else valueOf p x.magnitude

/-- The value of a number that is not a NaN. -/
def extended (x : Binary p) : WithBot (WithTop ℚ) :=
  if x.isInfinite then if x.negative then ⊥ else ⊤
  else ((x.exactValue : WithTop ℚ) : WithBot (WithTop ℚ))

theorem exactValue_lt_iff : x.exactValue < y.exactValue ↔ x.orderKey < y.orderKey := by
  obtain ⟨negative, m, _⟩ := x
  obtain ⟨negative', n, _⟩ := y
  have nonneg := valueOf_nonneg p m
  have nonneg' := valueOf_nonneg p n
  cases negative <;> cases negative'
  case false.false =>
    show valueOf p m < valueOf p n ↔ (m : Int) < n
    rw [(valueOf_strictMono p).lt_iff_lt, Int.ofNat_lt]
  case false.true =>
    show valueOf p m < -valueOf p n ↔ (m : Int) < -n
    exact iff_of_false (by linarith) (by omega)
  case true.false =>
    show -valueOf p m < valueOf p n ↔ -(m : Int) < n
    rcases Nat.eq_zero_or_pos m with rfl | positive
    · rw [valueOf_zero, neg_zero, ← valueOf_zero p, (valueOf_strictMono p).lt_iff_lt]
      omega
    · have value := valueOf_pos (p := p) positive
      exact iff_of_true (by linarith) (by omega)
  case true.true =>
    show -valueOf p m < -valueOf p n ↔ -(m : Int) < -n
    rw [neg_lt_neg_iff, (valueOf_strictMono p).lt_iff_lt, neg_lt_neg_iff, Int.ofNat_lt]

theorem infinity_pos (p : Precision) : 0 < p.infinity := by cases p <;> decide

/-- A number is finite or one of the infinities, and its key tells which. -/
theorem extended_cases (number : x.isNaN = false) :
    (x.extended = ((x.exactValue : WithTop ℚ) : WithBot (WithTop ℚ)) ∧
        -(p.infinity : Int) < x.orderKey ∧ x.orderKey < p.infinity) ∨
      (x.extended = ⊥ ∧ x.orderKey = -(p.infinity : Int)) ∨
      (x.extended = ⊤ ∧ x.orderKey = p.infinity) := by
  have inside : x.magnitude ≤ p.infinity := Nat.not_lt.mp (of_decide_eq_false number)
  rw [extended, orderKey, isInfinite]
  by_cases infinite : x.magnitude = p.infinity
  · rw [decide_eq_true infinite, if_pos rfl, infinite]
    cases x.negative with
    | true => exact .inr (.inl ⟨rfl, rfl⟩)
    | false => exact .inr (.inr ⟨rfl, rfl⟩)
  · rw [decide_eq_false infinite, if_neg nofun]
    refine .inl ⟨rfl, ?_⟩
    split <;> omega

/-- Numbers are ordered by their keys. -/
theorem extended_lt_iff (number : x.isNaN = false) (number' : y.isNaN = false) :
    x.extended < y.extended ↔ x.orderKey < y.orderKey := by
  have positive := infinity_pos p
  rcases extended_cases number with ⟨value, low, high⟩ | ⟨value, key⟩ | ⟨value, key⟩ <;>
    rcases extended_cases number' with ⟨value', low', high'⟩ | ⟨value', key'⟩ | ⟨value', key'⟩ <;>
    rw [value, value']
  case inl.inl => rw [WithBot.coe_lt_coe, WithTop.coe_lt_coe, exactValue_lt_iff]
  case inl.inr.inl => exact iff_of_false not_lt_bot (by omega)
  case inl.inr.inr =>
    exact iff_of_true (WithBot.coe_lt_coe.mpr (WithTop.coe_lt_top _)) (by omega)
  case inr.inl.inl => exact iff_of_true (WithBot.bot_lt_coe _) (by omega)
  case inr.inl.inr.inl => exact iff_of_false not_lt_bot (by omega)
  case inr.inl.inr.inr => exact iff_of_true bot_lt_top (by omega)
  case inr.inr.inl => exact iff_of_false not_top_lt (by omega)
  case inr.inr.inr.inl => exact iff_of_false not_top_lt (by omega)
  case inr.inr.inr.inr => exact iff_of_false not_top_lt (by omega)

theorem order?_of_numbers (number : x.isNaN = false) (number' : y.isNaN = false) :
    x.order? y = some (compare x.orderKey y.orderKey) := by
  rw [order?, number, number']
  rfl

theorem order?_of_nan (nan : x.isNaN = true ∨ y.isNaN = true) : x.order? y = none :=
  if_pos (Bool.or_eq_true_iff.mpr nan)

theorem order?_eq_lt_iff :
    x.order? y = some .lt ↔ x.isNaN = false ∧ y.isNaN = false ∧ x.extended < y.extended := by
  cases nan : x.isNaN with
  | true => simp [order?_of_nan (.inl nan)]
  | false =>
    cases nan' : y.isNaN with
    | true => simp [order?_of_nan (.inr nan')]
    | false => simp [order?_of_numbers nan nan', extended_lt_iff nan nan', Int.compare_eq_lt]

theorem order?_eq_gt_iff :
    x.order? y = some .gt ↔ x.isNaN = false ∧ y.isNaN = false ∧ y.extended < x.extended := by
  cases nan : x.isNaN with
  | true => simp [order?_of_nan (.inl nan)]
  | false =>
    cases nan' : y.isNaN with
    | true => simp [order?_of_nan (.inr nan')]
    | false => simp [order?_of_numbers nan nan', extended_lt_iff nan' nan, Int.compare_eq_gt]

/-- A number that a magnitude has as its value is rounded to that magnitude. -/
theorem NearestMagnitude.of_valueOf (le : m ≤ p.infinity) : NearestMagnitude p (valueOf p m) m where
  le_infinity := le
  nearest := by
    intro other _
    rw [gap, sub_self, abs_zero]
    exact abs_nonneg _
  even := by
    intro other _ different same
    rw [gap, sub_self, abs_zero, gap, eq_comm, abs_eq_zero, sub_eq_zero] at same
    exact absurd ((valueOf_strictMono p).injective same) different

theorem valueOf_scaled {shift significand : Nat} (le : significand ≤ 2 * p.fractionCount)
    (normal : shift = 0 ∨ p.fractionCount ≤ significand) :
    valueOf p (shift * p.fractionCount + significand) =
      (significand * 2 ^ shift : Nat) / p.unitsPerOne := by
  rw [valueOf, unitsOf_scaled le normal]

theorem unitsPerOne_eq (p : Precision) : p.unitsPerOne = 2 ^ p.unitExponent := rfl

/-- The exponents of double precision reach further. -/
theorem widened_lt {shift significand exponent scaled : Nat}
    (finite : shift * 2 ^ 23 + significand < 255 * 2 ^ 23) (carried : scaled < 2 * 2 ^ 52)
    (least : exponent ≤ shift + 925) : exponent * 2 ^ 52 + scaled < 2047 * 2 ^ 52 := by
  have small : shift < 255 := by omega
  calc exponent * 2 ^ 52 + scaled
    _ < 1179 * 2 ^ 52 + 2 * 2 ^ 52 :=
      Nat.add_lt_add_of_le_of_lt (Nat.mul_le_mul_right _ (by omega)) carried
    _ ≤ 2047 * 2 ^ 52 := by decide

/-- Every single-precision number is a double-precision number. -/
theorem exists_valueOf_double (finite : m < Precision.single.infinity) :
    ∃ n < Precision.double.infinity, valueOf .double n = valueOf .single m := by
  obtain ⟨shift, significand, rfl, below, normal⟩ := exists_scaled .single m
  rcases Nat.eq_zero_or_pos significand with rfl | positive
  · obtain rfl : shift = 0 := normal.resolve_right (by decide)
    exact ⟨0, infinity_pos .double, by rw [valueOf_zero, Nat.zero_mul, valueOf_zero]⟩
  · obtain ⟨extra, wider, exponents⟩ : ∃ extra, extra = 925 ∧
        Precision.double.unitExponent = Precision.single.unitExponent + extra := ⟨925, rfl, rfl⟩
    -- The significand is moved up to the leading bit of a double-precision one.
    have bits : significand.log2 < 24 := (Nat.log2_lt positive.ne').mpr below
    obtain ⟨gap, room⟩ := Nat.exists_eq_add_of_le (show significand.log2 ≤ 52 by omega)
    have leading : 2 ^ 52 ≤ significand * 2 ^ gap := by
      rw [room, Nat.pow_add]
      exact Nat.mul_le_mul_right _ (Nat.log2_self_le positive.ne')
    have carried : significand * 2 ^ gap < 2 * 2 ^ 52 := by
      rw [← Nat.pow_succ', room, ← Nat.succ_add, Nat.pow_add]
      exact Nat.mul_lt_mul_of_pos_right Nat.lt_log2_self (Nat.two_pow_pos gap)
    obtain ⟨exponent, moved⟩ := Nat.exists_eq_add_of_le (show gap ≤ shift + extra by omega)
    have inside : exponent * 2 ^ 52 + significand * 2 ^ gap < Precision.double.infinity :=
      widened_lt finite carried (by omega)
    have value : valueOf .double (exponent * 2 ^ 52 + significand * 2 ^ gap) =
        (significand * 2 ^ gap * 2 ^ exponent : Nat) / Precision.double.unitsPerOne :=
      valueOf_scaled carried.le (.inr leading)
    have units : significand * 2 ^ gap * 2 ^ exponent = significand * 2 ^ shift * 2 ^ extra := by
      rw [Nat.mul_assoc, Nat.mul_assoc, ← Nat.pow_add, ← Nat.pow_add, moved]
    refine ⟨_, inside, ?_⟩
    rw [value, valueOf_scaled below.le normal, units, unitsPerOne_eq, unitsPerOne_eq, exponents,
      Nat.pow_add, Nat.cast_mul, Nat.cast_mul _ (2 ^ extra),
      mul_div_mul_right _ _ (Nat.cast_ne_zero.mpr (Nat.two_pow_pos extra).ne')]

theorem roundMagnitude_double (finite : m < Precision.single.infinity) :
    ∃ n < Precision.double.infinity, valueOf .double n = valueOf .single m ∧
      roundMagnitude .double (unitsOf .single m * Precision.double.unitsPerOne)
        Precision.single.unitsPerOne = n := by
  obtain ⟨n, finite', value⟩ := exists_valueOf_double finite
  have positive : 0 < Precision.single.unitsPerOne := Nat.two_pow_pos _
  have quotient : (unitsOf .single m * Precision.double.unitsPerOne : Nat) /
      ((Precision.single.unitsPerOne : ℚ) * Precision.double.unitsPerOne) = valueOf .double n := by
    rw [Nat.cast_mul, mul_div_mul_right _ _ (unitsPerOne_pos .double).ne', value]
    rfl
  have nearest := roundMagnitude_nearest .double
    (unitsOf .single m * Precision.double.unitsPerOne) positive
  rw [quotient] at nearest
  exact ⟨n, finite', value, nearest.unique (.of_valueOf finite'.le)⟩

theorem isNaN_of_finite (finite : x.magnitude < p.infinity) : x.isNaN = false :=
  decide_eq_false (Nat.not_lt.mpr finite.le)

theorem isInfinite_of_finite (finite : x.magnitude < p.infinity) : x.isInfinite = false :=
  decide_eq_false finite.ne

theorem eq_infinite (infinite : x.isInfinite = true) : x = .infinite x.negative := by
  obtain ⟨negative, magnitude, bound⟩ := x
  obtain rfl : magnitude = p.infinity := of_decide_eq_true infinite
  rfl

theorem isFinite_or_isInfinite (number : x.isNaN = false) :
    x.isFinite = true ∨ x.isInfinite = true := by
  have inside : x.magnitude ≤ p.infinity := Nat.not_lt.mp (of_decide_eq_false number)
  rcases inside.lt_or_eq with finite | infinite
  · exact .inl (decide_eq_true finite)
  · exact .inr (decide_eq_true infinite)

theorem extended_of_finite (finite : x.magnitude < p.infinity) :
    x.extended = ((x.exactValue : WithTop ℚ) : WithBot (WithTop ℚ)) := by
  rw [extended, isInfinite_of_finite finite, if_neg nofun]

/-- Conversion to double precision keeps the sign and the value of a finite number. -/
theorem convert_double_of_finite {x : Binary .single}
    (finite : x.magnitude < Precision.single.infinity) :
    (x.convert .double).negative = x.negative ∧
      (x.convert .double).magnitude < Precision.double.infinity ∧
      valueOf .double (x.convert .double).magnitude = valueOf .single x.magnitude := by
  obtain ⟨n, finite', value, kept⟩ := roundMagnitude_double finite
  have converted : x.convert .double =
      rounded .double x.negative (x.units * Precision.double.unitsPerOne)
        Precision.single.unitsPerOne := by
    rw [convert, dif_neg nofun, isNaN_of_finite finite, if_neg nofun,
      isInfinite_of_finite finite, if_neg nofun]
  have magnitude : (x.convert .double).magnitude = n := by
    rw [converted]
    exact kept
  have negative : (x.convert .double).negative = x.negative := by rw [converted, rounded]
  rw [magnitude]
  exact ⟨negative, finite', value⟩

theorem exactValue_convert {x : Binary .single} (finite : x.magnitude < Precision.single.infinity) :
    (x.convert .double).magnitude < Precision.double.infinity ∧
      (x.convert .double).exactValue = x.exactValue := by
  obtain ⟨negative, finite', value⟩ := convert_double_of_finite finite
  rw [exactValue, exactValue, negative, value]
  exact ⟨finite', rfl⟩

/-- Conversion to double precision keeps every value. -/
theorem extended_convert (number : x.isNaN = false) :
    (x.convert .double).isNaN = false ∧ (x.convert .double).extended = x.extended := by
  cases p with
  | double => exact ⟨number, rfl⟩
  | single =>
    rcases (Nat.not_lt.mp (of_decide_eq_false number)).lt_or_eq with finite | infinite
    · obtain ⟨finite', value⟩ := exactValue_convert finite
      rw [isNaN_of_finite finite', extended_of_finite finite', extended_of_finite finite, value]
      exact ⟨rfl, rfl⟩
    · have infinite : x.isInfinite = true := decide_eq_true infinite
      have infinite' : (Binary.infinite (p := .double) x.negative).isInfinite = true :=
        decide_eq_true rfl
      rw [convert, dif_neg nofun, number, if_neg nofun, if_pos infinite, extended, extended,
        if_pos infinite, if_pos infinite']
      exact ⟨rfl, rfl⟩

theorem isNaN_convert (x : Binary p) : (x.convert .double).isNaN = x.isNaN := by
  cases nan : x.isNaN with
  | false => exact (extended_convert nan).1
  | true =>
    cases p with
    | double => exact nan
    | single =>
      rw [convert, dif_neg nofun, if_pos nan]
      cases x.negative <;> rfl

theorem order?_convert_eq_lt_iff :
    (x.convert .double).order? (y.convert .double) = some .lt ↔
      x.isNaN = false ∧ y.isNaN = false ∧ x.extended < y.extended := by
  rw [order?_eq_lt_iff, isNaN_convert, isNaN_convert]
  refine and_congr_right fun number => and_congr_right fun number' => ?_
  rw [(extended_convert number).2, (extended_convert number').2]

theorem order?_convert_eq_gt_iff :
    (x.convert .double).order? (y.convert .double) = some .gt ↔
      x.isNaN = false ∧ y.isNaN = false ∧ y.extended < x.extended := by
  rw [order?_eq_gt_iff, isNaN_convert, isNaN_convert]
  refine and_congr_right fun number => and_congr_right fun number' => ?_
  rw [(extended_convert number).2, (extended_convert number').2]

end Binary

end ScalarLowering
