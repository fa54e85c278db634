set_option autoImplicit false

/- Decimal numbers and how they are written: positionally from 0.0001 up to but
not including 10000000000000000, always with a digit after the point, and with
an exponent outside that range. -/

namespace ScalarLowering

/-- The decimal digits of an integer after its sign. -/
def intChars (i : Int) : List Char :=
  if i < 0 then '-' :: Nat.toDigits 10 i.natAbs else Nat.toDigits 10 i.natAbs

def intText (i : Int) : String := String.ofList (intChars i)

/-- How many decimal digits `digitCount` takes off at a time. -/
def digitBlock : Nat := 32

/-- How many decimal digits a number has. -/
def digitCount (n : Nat) : Nat :=
  if n < Nat.pow 10 digitBlock then (Nat.toDigits 10 n).length
  else digitCount (n / Nat.pow 10 digitBlock) + digitBlock
termination_by n
decreasing_by
  have positive : 0 < Nat.pow 10 digitBlock := Nat.pow_pos (by decide)
  exact Nat.div_lt_self (by omega) (by decide)

/-- The number `coefficient * 10 ^ exponent`. -/
structure Decimal where
  coefficient : Nat
  exponent : Int
deriving DecidableEq, Repr

namespace Decimal

/-- The same number without zeros at the end of its coefficient. -/
def normalized (d : Decimal) : Decimal :=
  if d.coefficient ≠ 0 ∧ d.coefficient % 10 = 0 then
    normalized ⟨d.coefficient / 10, d.exponent + 1⟩
  else d
termination_by d.coefficient
decreasing_by omega

def digits (d : Decimal) : List Char := Nat.toDigits 10 d.coefficient

/-- How many digits stand before the point; zeros follow the point where this is negative. -/
def pointPosition (d : Decimal) : Int := d.digits.length + d.exponent

/-- Positional notation with at least one digit on each side of the point. -/
def positional (digits : List Char) (point : Int) : List Char :=
  if point ≤ 0 then '0' :: '.' :: (List.replicate (-point).toNat '0' ++ digits)
  else if point < digits.length then
    digits.take point.toNat ++ '.' :: digits.drop point.toNat
  else digits ++ (List.replicate (point - digits.length).toNat '0' ++ ['.', '0'])

/-- One digit before the point, the others behind it, and the exponent of the first. -/
def scientific (digits : List Char) (point : Int) : List Char :=
  digits.take 1 ++ (if digits.length ≤ 1 then [] else '.' :: digits.drop 1) ++
    'e' :: intChars (point - 1)

def chars (d : Decimal) : List Char :=
  if -4 < d.pointPosition ∧ d.pointPosition ≤ 16 then positional d.digits d.pointPosition
  else scientific d.digits d.pointPosition

end Decimal

end ScalarLowering
