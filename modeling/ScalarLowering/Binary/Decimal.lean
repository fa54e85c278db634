import ScalarLowering.Binary.Rounding
import ScalarLowering.Decimal

set_option autoImplicit false

/- Binary numbers read from decimal ones, and written as the shortest decimal
number that reads back. The reader is itself the test of what reads back. -/

namespace ScalarLowering

namespace Binary

variable {p : Precision}

/-- The number nearest to a decimal one. Decimals far beyond infinity or far below the unit are
settled by their exponents, so that no huge power of ten is ever computed. -/
def ofDecimal (p : Precision) (negative : Bool) (d : Decimal) : Binary p :=
  if d.coefficient = 0 then zero negative
  else if 400 ≤ d.exponent then infinite negative
  else if (d.coefficient.log2 : Int) + p.unitExponent + 2 ≤ 3 * -d.exponent then zero negative
  else
    rounded p negative (d.coefficient * Nat.pow 10 d.exponent.toNat * p.unitsPerOne)
      (Nat.pow 10 (-d.exponent).toNat)

/-- Whether a decimal number reads as the absolute value of `x`. -/
def isReadFrom (x : Binary p) (d : Decimal) : Bool := ofDecimal p false d = x.abs

/-- A power of ten by which every number other than zero becomes at least 1, at either
precision. -/
def leadScale : Nat := 330

/-- The exponent of the first decimal digit of a finite number other than zero. -/
def leadExponent (x : Binary p) : Int :=
  digitCount (x.units * Nat.pow 10 leadScale / p.unitsPerOne) - 1 - leadScale

/-- Of the two multiples of `10 ^ exponent` next to the absolute value of `x`, the one that reads
as it; if both do, the nearer one, and the greater of two equally near ones. -/
def onGrid? (x : Binary p) (exponent : Int) : Option Decimal :=
  let num := x.units * Nat.pow 10 (-exponent).toNat
  let den := p.unitsPerOne * Nat.pow 10 exponent.toNat
  let below : Decimal := ⟨num / den, exponent⟩
  let above : Decimal := ⟨num / den + 1, exponent⟩
  if x.isReadFrom below then
    if x.isReadFrom above ∧ den ≤ 2 * (num % den) then some above else some below
  else if x.isReadFrom above then some above
  else none

/-- All digits of the absolute value of a finite number. -/
def exactDecimal (x : Binary p) : Decimal := ⟨x.units * Nat.pow 5 p.unitExponent, -p.unitExponent⟩

/-- The decimal number with the fewest digits that reads as the absolute value of a finite number
other than zero. Seventeen digits are tried before all of them are taken. -/
def shortest (x : Binary p) : Decimal :=
  let lead := x.leadExponent
  let found := (List.range 17).findSome? fun (n : Nat) => x.onGrid? (lead - n)
  (found.getD x.exactDecimal).normalized

def absChars (x : Binary p) : List Char :=
  if x.isInfinite then ['i', 'n', 'f']
  else if x.isZero then ['0', '.', '0']
  else x.shortest.chars

/-- The text of a number. A NaN is written without its sign. -/
def chars (x : Binary p) : List Char :=
  if x.isNaN then ['N', 'a', 'N']
  else if x.negative then '-' :: x.absChars
  else x.absChars

def text (x : Binary p) : String := String.ofList x.chars

end Binary

end ScalarLowering
