import ScalarLowering.Binary

set_option autoImplicit false

/- Rounding to nearest, ties to even, from exact quotients. Every conversion
and every arithmetic operation computes its exact result and rounds it here,
once. -/

namespace ScalarLowering

/-- The integer nearest to `num / den`; of two equally near ones the even one. -/
def roundHalfEven (num den : Nat) : Nat :=
  let quotient := num / den
  let rest := num % den
  if 2 * rest < den ∨ (2 * rest = den ∧ quotient % 2 = 0) then quotient else quotient + 1

/-- The magnitude nearest to `num / den` units. The quotient is scaled down by `shift`
doublings until the significand fits; a significand that rounding carries to the next
doubling runs over into the exponent field, which is what the carried number needs. -/
def roundMagnitude (p : Precision) (num den : Nat) : Nat :=
  let shift := (num / den).log2 - p.fractionBits
  min p.infinity (shift * p.fractionCount + roundHalfEven num (den * Nat.pow 2 shift))

theorem roundMagnitude_le (p : Precision) (num den : Nat) :
    roundMagnitude p num den ≤ p.infinity :=
  Nat.min_le_left ..

namespace Binary

/-- The number nearest to `num / den` units, under the given sign. -/
def rounded (p : Precision) (negative : Bool) (num den : Nat) : Binary p where
  negative
  magnitude := roundMagnitude p num den
  magnitude_lt := Nat.lt_of_le_of_lt (roundMagnitude_le p num den) p.infinity_lt

/-- The number nearest to an integer. -/
def ofInt (p : Precision) (i : Int) : Binary p :=
  rounded p (i < 0) (i.natAbs * p.unitsPerOne) 1

/-- The nearest number of a precision. A number of that precision stays as it is. -/
def convert {p : Precision} (q : Precision) (x : Binary p) : Binary q :=
  if h : p = q then h ▸ x
  else if x.isNaN then nan x.negative
  else if x.isInfinite then infinite x.negative
  else rounded q x.negative (x.units * q.unitsPerOne) p.unitsPerOne

/-- The integer part of a finite number: its value without the digits after the point. -/
def truncate {p : Precision} (x : Binary p) : Int :=
  let whole := x.units / p.unitsPerOne
  if x.negative then -(whole : Int) else whole

/-- The integer part held between two bounds; infinities give a bound and NaN gives 0. -/
def truncateWithin {p : Precision} (low high : Int) (x : Binary p) : Int :=
  if x.isNaN then 0
  else if x.isInfinite then if x.negative then low else high
  else max low (min high x.truncate)

end Binary

end ScalarLowering
