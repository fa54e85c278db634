import ScalarLowering.Decimal

set_option autoImplicit false

/- Reading integers and decimal numbers. A decimal number has digits on at least
one side of an optional point, then an optional exponent, which has digits too. -/

namespace ScalarLowering

/-- A leading sign, true for minus, and what follows it. -/
def splitSign : List Char → Bool × List Char
  | '-' :: rest => (true, rest)
  | '+' :: rest => (false, rest)
  | rest => (false, rest)

/-- The number that a nonempty run of decimal digits stands for. -/
def readNat? (cs : List Char) : Option Nat :=
  if cs ≠ [] ∧ cs.all Char.isDigit then some (Nat.ofDigitChars 10 cs 0) else none

/-- A run of digits behind an optional sign. -/
def readInt? (cs : List Char) : Option Int :=
  let (negative, digits) := splitSign cs
  (readNat? digits).map fun n => if negative then -(n : Int) else n

namespace Decimal

/-- The exponent at the end of a number; nothing stands for zero. -/
def readExponent? : List Char → Option Int
  | [] => some 0
  | 'e' :: rest => readInt? rest
  | 'E' :: rest => readInt? rest
  | _ => none

/-- The digits behind the point, if one follows, and the rest. -/
def splitFraction : List Char → List Char × List Char
  | '.' :: rest => rest.span Char.isDigit
  | rest => ([], rest)

def readUnsigned? (cs : List Char) : Option Decimal :=
  let (whole, rest) := cs.span Char.isDigit
  let (fraction, rest) := splitFraction rest
  if whole ++ fraction = [] then none
  else (readExponent? rest).map fun exponent =>
    ⟨Nat.ofDigitChars 10 (whole ++ fraction) 0, exponent - fraction.length⟩

/-- The sign of a number, true for minus, and its absolute value. -/
def read? (cs : List Char) : Option (Bool × Decimal) :=
  let (negative, rest) := splitSign cs
  (readUnsigned? rest).map fun d => (negative, d)

end Decimal

end ScalarLowering
