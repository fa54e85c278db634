import Mathlib.Data.Rat.Floor
import ScalarLowering.Proofs.Binary.Whole

set_option autoImplicit false

/- Conversions of floating-point numbers against the exact values. Another precision
holds the number nearest to the value, and an integer type holds the integer part
of the value as far as its bounds reach. -/

namespace ScalarLowering

/-- The integer part of a number: what is left of it without the digits after the point. -/
def truncated (q : ℚ) : Int := if 0 ≤ q then ⌊q⌋ else ⌈q⌉

theorem truncated_mono {q r : ℚ} (le : q ≤ r) : truncated q ≤ truncated r := by
  unfold truncated
  split_ifs with first second second
  · exact Int.floor_mono le
  · exact absurd (first.trans le) second
  · have below : ⌈q⌉ ≤ 0 := Int.ceil_le.mpr (by exact_mod_cast (not_le.mp first).le)
    exact Int.le_trans below (Int.floor_nonneg.mpr second)
  · exact Int.ceil_mono le

theorem truncated_neg {q : ℚ} (nonneg : 0 ≤ q) : truncated (-q) = -⌊q⌋ := by
  unfold truncated
  split_ifs with nonpos
  · obtain rfl : q = 0 := le_antisymm (neg_nonneg.mp nonpos) nonneg
    simp
  · exact Int.ceil_neg

namespace Binary

variable {p q : Precision} {x : Binary p} {y : Binary q} {low high i j : Int}

/-- `y` is `x` rounded once, to nearest and with ties to even. An infinity stays what it is, and a
NaN stays a NaN. -/
structure RoundsTo (x : Binary p) (y : Binary q) : Prop where
  finite : x.isFinite = true → y.IsNearest x.negative (valueOf p x.magnitude)
  infinite : x.isInfinite = true → y = infinite x.negative
  nan : x.isNaN = true → y.isNaN = true

/-- `i` is the integer part of `x` held between two bounds. An infinity gives a bound and a NaN
gives 0. -/
structure CutsTo (x : Binary p) (low high i : Int) : Prop where
  finite : x.isFinite = true → i = max low (min high (truncated x.exactValue))
  infinite : x.isInfinite = true → i = if x.negative then low else high
  nan : x.isNaN = true → i = 0

theorem convert_self (x : Binary p) : x.convert p = x := dif_pos rfl

theorem isNaN_of_infinite (infinite : x.isInfinite = true) : x.isNaN = false := by
  have same : x.magnitude = p.infinity := of_decide_eq_true infinite
  exact decide_eq_false (Nat.not_lt.mpr same.le)

theorem convert_of_infinite (infinite : x.isInfinite = true) (q : Precision) :
    x.convert q = .infinite x.negative := by
  by_cases same : p = q
  · subst same
    rw [convert_self]
    exact eq_infinite infinite
  · rw [convert, dif_neg same, isNaN_of_infinite infinite, if_neg Bool.false_ne_true,
      if_pos infinite]

theorem isNaN_nan (p : Precision) (negative : Bool) : (nan (p := p) negative).isNaN = true := by
  cases p <;> rfl

theorem convert_roundsTo (x : Binary p) (q : Precision) : x.RoundsTo (x.convert q) where
  finite := by
    intro finite
    have inside : x.magnitude < p.infinity := of_decide_eq_true finite
    by_cases same : p = q
    · subst same
      rw [convert_self]
      exact ⟨rfl, .of_valueOf inside.le⟩
    · rw [convert, dif_neg same, isNaN_of_finite inside, if_neg Bool.false_ne_true,
        isInfinite_of_finite inside, if_neg Bool.false_ne_true]
      have units : 0 < p.unitsPerOne := Nat.two_pow_pos p.unitExponent
      have nearest := rounded_isNearest q x.negative (x.units * q.unitsPerOne) units
      rwa [Nat.cast_mul, mul_div_mul_right _ _ (unitsPerOne_pos q).ne'] at nearest
  infinite := fun infinite => convert_of_infinite infinite q
  nan := by
    intro nan
    by_cases same : p = q
    · subst same
      rwa [convert_self]
    · rw [convert, dif_neg same, if_pos nan]
      exact isNaN_nan q x.negative

/-- No second rounding takes place on the way through double precision. -/
theorem RoundsTo.of_double (rounds : (x.convert .double).RoundsTo y) : x.RoundsTo y := by
  cases p with
  | double => rwa [convert_self] at rounds
  | single =>
    constructor
    · intro finite
      obtain ⟨negative, finite', value⟩ := convert_double_of_finite (of_decide_eq_true finite)
      have nearest := rounds.finite (decide_eq_true finite')
      rwa [negative, value] at nearest
    · intro infinite
      rw [convert_of_infinite infinite] at rounds
      exact rounds.infinite (decide_eq_true rfl)
    · intro nan
      exact rounds.nan ((isNaN_convert x).trans nan)

/-- A number other than a NaN comes back from double precision as it was. -/
theorem convert_double_convert (number : x.isNaN = false) : (x.convert .double).convert p = x := by
  have rounds : x.RoundsTo ((x.convert .double).convert p) := .of_double (convert_roundsTo _ p)
  rcases isFinite_or_isInfinite number with finite | infinite
  · have inside : x.magnitude < p.infinity := of_decide_eq_true finite
    exact (rounds.finite finite).unique ⟨rfl, .of_valueOf inside.le⟩
  · rw [rounds.infinite infinite, ← eq_infinite infinite]

theorem isZero_of_not_finite (beyond : x.isFinite = false) : x.isZero = false := by
  have large : p.infinity ≤ x.magnitude := Nat.not_lt.mp (of_decide_eq_false beyond)
  have positive := infinity_pos p
  exact decide_eq_false (by omega)

theorem isFinite_of_nan (nan : x.isNaN = true) : x.isFinite = false := by
  have beyond : p.infinity < x.magnitude := of_decide_eq_true nan
  exact decide_eq_false beyond.not_gt

theorem isFinite_of_infinite (infinite : x.isInfinite = true) : x.isFinite = false := by
  have same : x.magnitude = p.infinity := of_decide_eq_true infinite
  exact decide_eq_false same.not_lt

theorem eq_zero (zero : x.isZero = true) : x = .zero x.negative := by
  obtain ⟨negative, magnitude, bound⟩ := x
  obtain rfl : magnitude = 0 := of_decide_eq_true zero
  rfl

/-- A zero is told by its value, which double precision keeps. -/
theorem isZero_convert_double (x : Binary p) : (x.convert .double).isZero = x.isZero := by
  cases p with
  | double => rw [convert_self]
  | single =>
    cases nan : x.isNaN with
    | true =>
      have nan' : (x.convert .double).isNaN = true := (isNaN_convert x).trans nan
      rw [isZero_of_not_finite (isFinite_of_nan nan), isZero_of_not_finite (isFinite_of_nan nan')]
    | false =>
      rcases isFinite_or_isInfinite nan with finite | infinite
      · obtain ⟨_, _, value⟩ := convert_double_of_finite (of_decide_eq_true finite)
        apply decide_eq_decide.mpr
        rw [← (valueOf_strictMono .double).injective.eq_iff, value, valueOf_zero,
          ← valueOf_zero .single, (valueOf_strictMono .single).injective.eq_iff]
      · rw [convert_of_infinite infinite, isZero_of_not_finite (isFinite_of_infinite infinite)]
        cases x.negative <;> rfl

theorem truncate_eq (x : Binary p) : x.truncate = truncated x.exactValue := by
  have floor : ⌊valueOf p x.magnitude⌋ = ((x.units / p.unitsPerOne : Nat) : Int) := by
    rw [valueOf, Rat.floor_natCast_div_natCast]
    rfl
  unfold truncate exactValue
  dsimp only
  split_ifs
  · rw [truncated_neg (valueOf_nonneg p _), floor]
  · rw [truncated, if_pos (valueOf_nonneg p _), floor]

theorem truncateWithin_cutsTo (x : Binary p) (low high : Int) :
    x.CutsTo low high (x.truncateWithin low high) where
  finite := by
    intro finite
    rw [truncateWithin_of_finite (of_decide_eq_true finite), truncate_eq]
  infinite := by
    intro infinite
    rw [truncateWithin, isNaN_of_infinite infinite, if_neg Bool.false_ne_true, if_pos infinite]
  nan := by
    intro nan
    rw [truncateWithin, if_pos nan]

theorem CutsTo.of_double (cuts : (x.convert .double).CutsTo low high i) : x.CutsTo low high i := by
  cases p with
  | double => rwa [convert_self] at cuts
  | single =>
    constructor
    · intro finite
      obtain ⟨finite', value⟩ := exactValue_convert (of_decide_eq_true finite)
      rw [cuts.finite (decide_eq_true finite'), value]
    · intro infinite
      rw [convert_of_infinite infinite] at cuts
      exact cuts.infinite (decide_eq_true rfl)
    · intro nan
      exact cuts.nan ((isNaN_convert x).trans nan)

/-- The greater of two numbers leaves no smaller integer. -/
theorem CutsTo.mono (bounds : low ≤ high) (number : x.isNaN = false) (number' : y.isNaN = false)
    (le : x.extended ≤ y.extended) (first : x.CutsTo low high i) (second : y.CutsTo low high j) :
    i ≤ j := by
  rcases isFinite_or_isInfinite number with finite | infinite <;>
    rcases isFinite_or_isInfinite number' with finite' | infinite'
  case inl.inl =>
    rw [extended_of_finite (of_decide_eq_true finite),
      extended_of_finite (of_decide_eq_true finite'), WithBot.coe_le_coe, WithTop.coe_le_coe] at le
    have parts := truncated_mono le
    rw [first.finite finite, second.finite finite']
    omega
  case inl.inr =>
    rw [extended_of_finite (of_decide_eq_true finite), extended, if_pos infinite'] at le
    rw [first.finite finite, second.infinite infinite']
    cases negative : y.negative with
    | false =>
      rw [if_neg Bool.false_ne_true]
      omega
    | true =>
      rw [negative, if_pos rfl, le_bot_iff] at le
      exact absurd le WithBot.coe_ne_bot
  case inr.inl =>
    rw [extended_of_finite (of_decide_eq_true finite'), extended, if_pos infinite] at le
    rw [first.infinite infinite, second.finite finite']
    cases negative : x.negative with
    | false =>
      rw [negative, if_neg Bool.false_ne_true, top_le_iff] at le
      exact absurd (WithBot.coe_injective le) WithTop.coe_ne_top
    | true =>
      rw [if_pos rfl]
      omega
  -- Of two infinities the order leaves out only the positive one before the negative one.
  case inr.inr =>
    rw [extended, if_pos infinite, extended, if_pos infinite'] at le
    rw [first.infinite infinite, second.infinite infinite']
    revert le
    cases x.negative <;> cases y.negative
    case false.false => exact fun _ => le_rfl
    case false.true => exact fun le => absurd (le_bot_iff.mp le) top_ne_bot
    case true.false => exact fun _ => bounds
    case true.true => exact fun _ => le_rfl

theorem ofInt_isNearest (p : Precision) (i : Int) : (ofInt p i).IsNearest (i < 0) |(i : ℚ)| := by
  have nearest := rounded_isNearest p (i < 0) (i.natAbs * p.unitsPerOne) Nat.one_pos
  rwa [Nat.cast_one, one_mul, Nat.cast_mul, mul_div_cancel_right₀ _ (unitsPerOne_pos p).ne',
    Nat.cast_natAbs, Int.cast_abs] at nearest

end Binary

end ScalarLowering
