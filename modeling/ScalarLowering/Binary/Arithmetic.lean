import ScalarLowering.Binary.Rounding

set_option autoImplicit false

/- Arithmetic on binary floating-point numbers: the exact result, rounded once.
An operation on a NaN returns its first NaN operand; one that has no result,
such as a root of a negative number, returns the NaN `invalid`. -/

namespace ScalarLowering

/-- The greatest `r` with `r * r ≤ n`, found two bits at a time. -/
def floorRoot (n : Nat) : Nat :=
  if n = 0 then 0
  else
    let r := 2 * floorRoot (n / 4)
    if (r + 1) * (r + 1) ≤ n then r + 1 else r
termination_by n

namespace Binary

variable {p : Precision}

/-- The NaN of an operation without a result. -/
def invalid : Binary p := nan true

/-- The sum. An exact zero is positive unless both operands are negative zeros. -/
def add (x y : Binary p) : Binary p :=
  if x.isNaN then x
  else if y.isNaN then y
  else if x.isInfinite then if y.isInfinite && x.negative != y.negative then invalid else x
  else if y.isInfinite then y
  else
    let sum := x.signedUnits + y.signedUnits
    if sum = 0 then zero (x.negative && y.negative)
    else rounded p (sum < 0) sum.natAbs 1

def sub (x y : Binary p) : Binary p :=
  if x.isNaN then x else if y.isNaN then y else x.add y.neg

def mul (x y : Binary p) : Binary p :=
  let negative := x.negative != y.negative
  if x.isNaN then x
  else if y.isNaN then y
  else if x.isInfinite || y.isInfinite then
    if x.isZero || y.isZero then invalid else infinite negative
  else rounded p negative (x.units * y.units) p.unitsPerOne

/-- Half of a number. -/
def half (x : Binary p) : Binary p :=
  if x.isFinite then rounded p x.negative x.units 2 else x

/-- The number nearest to the square root of `n` in units. Four times `n` has its root between
two whole numbers of half units, and no rounding boundary lies strictly between them, so an
inexact root may stand for any point in between. -/
def roundedRoot (p : Precision) (n : Nat) : Binary p :=
  let root := floorRoot (4 * n)
  let inexact := if root * root = 4 * n then 0 else 1
  rounded p false (2 * root + inexact) 4

/-- The square root; the root of a zero is that zero. -/
def sqrt (x : Binary p) : Binary p :=
  if x.isNaN || x.isZero then x
  else if x.negative then invalid
  else if x.isInfinite then x
  else roundedRoot p (x.units * p.unitsPerOne)

/-- The length of the vector `(x, y)`, without overflow on the way; an infinite component makes
it infinite even beside a NaN. -/
def hypot (x y : Binary p) : Binary p :=
  if x.isInfinite || y.isInfinite then infinite false
  else if x.isNaN then x
  else if y.isNaN then y
  else roundedRoot p (x.units * x.units + y.units * y.units)

/-- The greatest integer not above `x`. A zero keeps its sign. -/
def floor (x : Binary p) : Binary p :=
  if x.isFinite && !x.isZero then ofInt p (x.signedUnits / p.unitsPerOne) else x

end Binary

end ScalarLowering
