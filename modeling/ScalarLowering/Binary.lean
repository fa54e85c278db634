import ScalarLowering.NumType

set_option autoImplicit false

/- Binary floating-point numbers, bit for bit. A number is a sign and a
magnitude, the remaining bits read as a natural number: magnitudes are ordered
as the values they stand for, then comes infinity, then the NaNs. A finite
magnitude counts a whole number of units, the unit being the least positive
number of the format. -/

namespace ScalarLowering

namespace Precision

/-- The unit of the format is `2 ^ -unitExponent`. -/
@[simp] def unitExponent : Precision → Nat
  | .single => 149
  | .double => 1074

/-- How many units make up the number 1. -/
def unitsPerOne (p : Precision) : Nat := Nat.pow 2 p.unitExponent

/-- How many fractions there are, which is also what the leading bit of a significand counts. -/
def fractionCount (p : Precision) : Nat := Nat.pow 2 p.fractionBits

/-- How many magnitudes there are; the sign bit lies above them. -/
def magnitudeCount (p : Precision) : Nat := Nat.pow 2 (p.bits - 1)

/-- The magnitude of infinity: all exponent bits set, no fraction. -/
def infinity (p : Precision) : Nat := (Nat.pow 2 p.exponentBits - 1) * p.fractionCount

/-- The first bit of a NaN's fraction, set in the NaNs that operations return. -/
def quietBit (p : Precision) : Nat := p.fractionCount / 2

theorem magnitudeCount_pos (p : Precision) : 0 < p.magnitudeCount := by
  cases p <;> decide

theorem infinity_add_quietBit_lt (p : Precision) :
    p.infinity + p.quietBit < p.magnitudeCount := by
  cases p <;> decide

theorem infinity_lt (p : Precision) : p.infinity < p.magnitudeCount := by
  cases p <;> decide

end Precision

/-- A binary floating-point number of the given precision. -/
structure Binary (p : Precision) where
  negative : Bool
  /-- All bits below the sign. -/
  magnitude : Nat
  magnitude_lt : magnitude < p.magnitudeCount
deriving DecidableEq, Repr

namespace Binary

variable {p : Precision}

/-- The number with the given bits, the sign being the highest. -/
def ofBits (p : Precision) (b : BitVec p.bits) : Binary p where
  negative := b.msb
  magnitude := b.toNat % p.magnitudeCount
  magnitude_lt := Nat.mod_lt _ p.magnitudeCount_pos

def toBits (x : Binary p) : BitVec p.bits :=
  BitVec.ofNat p.bits ((if x.negative then p.magnitudeCount else 0) + x.magnitude)

def zero (negative : Bool) : Binary p := ⟨negative, 0, p.magnitudeCount_pos⟩

def infinite (negative : Bool) : Binary p := ⟨negative, p.infinity, p.infinity_lt⟩

/-- The NaN that stands for all NaNs of one sign. -/
def nan (negative : Bool) : Binary p :=
  ⟨negative, p.infinity + p.quietBit, p.infinity_add_quietBit_lt⟩

def isNaN (x : Binary p) : Bool := p.infinity < x.magnitude
def isInfinite (x : Binary p) : Bool := x.magnitude = p.infinity
def isFinite (x : Binary p) : Bool := x.magnitude < p.infinity

/-- Both zeros, of either sign. -/
def isZero (x : Binary p) : Bool := x.magnitude = 0

/-- How many units a finite magnitude stands for. The exponent field counts the doublings of
the significand; fields 0 and 1 both mean none, but field 0 lacks the leading bit. -/
def unitsOf (p : Precision) (magnitude : Nat) : Nat :=
  let exponent := magnitude / p.fractionCount
  let fraction := magnitude % p.fractionCount
  if exponent = 0 then fraction else (p.fractionCount + fraction) * Nat.pow 2 (exponent - 1)

/-- The absolute value in units, of a finite number. -/
def units (x : Binary p) : Nat := unitsOf p x.magnitude

/-- The value in units, of a finite number. -/
def signedUnits (x : Binary p) : Int := if x.negative then -(x.units : Int) else x.units

/-- A key that orders all numbers but the NaNs, and makes both zeros equal. -/
def orderKey (x : Binary p) : Int := if x.negative then -(x.magnitude : Int) else x.magnitude

/-- The order of two numbers; a NaN is unordered with everything. -/
def order? (x y : Binary p) : Option Ordering :=
  if x.isNaN || y.isNaN then none else some (compare x.orderKey y.orderKey)

def neg (x : Binary p) : Binary p := { x with negative := !x.negative }
def abs (x : Binary p) : Binary p := { x with negative := false }

/-- The magnitude of `x` under the sign of `y`. -/
def withSignOf (x y : Binary p) : Binary p := { x with negative := y.negative }

end Binary

end ScalarLowering
