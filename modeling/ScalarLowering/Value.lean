import ScalarLowering.Binary.Decimal
import ScalarLowering.NumType.Promotion
import ScalarLowering.Vocabulary.Numeric

set_option autoImplicit false

/- Scalar values and their conversions. Integers wrap, floating numbers are cut
off and held within the bounds of an integer type, every value other than zero
is true, and a complex number becomes a real one by losing its imaginary part. -/

namespace ScalarLowering

/-- An untyped literal of the host language. -/
inductive Literal where
  | int (i : Int64)
  | float (x : Binary .double)
deriving DecidableEq, Repr

namespace Literal

/-- The type a literal has before any conversion. -/
def type : Literal → NumType
  | .int _ => .int64
  | .float _ => .float64

def candidate : Literal → Candidate
  | .int _ => .intLiteral
  | .float _ => .floatLiteral

def text : Literal → String
  | .int i => intText i.toInt
  | .float x => x.text

end Literal

/-- A value of one of the scalar types. -/
inductive Value where
  | bool (b : Bool)
  | int (sign : Signedness) (width : IntWidth) (bits : BitVec width.bits)
  | float (precision : Precision) (x : Binary precision)
  | complex (precision : Precision) (re im : Binary precision)
deriving DecidableEq, Repr

/-- The number that bits stand for under a signedness. -/
def Signedness.read {n : Nat} (s : Signedness) (bits : BitVec n) : Int :=
  match s with
  | .signed => bits.toInt
  | .unsigned => bits.toNat

/-- The least integer of a type. -/
def Signedness.low (s : Signedness) (w : IntWidth) : Int :=
  match s with
  | .signed => (BitVec.intMin w.bits).toInt
  | .unsigned => 0

/-- The greatest integer of a type. -/
def Signedness.high (s : Signedness) (w : IntWidth) : Int :=
  match s with
  | .signed => (BitVec.intMax w.bits).toInt
  | .unsigned => (BitVec.allOnes w.bits).toNat

/-- What a value stands for, with its storage width forgotten. Nothing is lost: every integer
type fits the integers and every single-precision number is a double-precision one. -/
inductive Number where
  | int (i : Int)
  | real (x : Binary .double)
  | complex (re im : Binary .double)
deriving DecidableEq, Repr

/-- The value of a type that a number converts to. -/
def Number.toValue (n : Number) : NumType → Value
  | .bool =>
    match n with
    | .int i => .bool (i ≠ 0)
    | .real x => .bool (!x.isZero)
    | .complex re im => .bool (!re.isZero || !im.isZero)
  | .int s w =>
    match n with
    | .int i => .int s w (BitVec.ofInt w.bits i)
    | .real x | .complex x _ =>
      .int s w (BitVec.ofInt w.bits (x.truncateWithin (s.low w) (s.high w)))
  | .float p =>
    match n with
    | .int i => .float p (.ofInt p i)
    | .real x | .complex x _ => .float p (x.convert p)
  | .complex p =>
    match n with
    | .int i => .complex p (.ofInt p i) (.zero false)
    | .real x => .complex p (x.convert p) (.zero false)
    | .complex re im => .complex p (re.convert p) (im.convert p)

namespace Value

def type : Value → NumType
  | .bool _ => .bool
  | .int s w _ => .int s w
  | .float p _ => .float p
  | .complex p _ _ => .complex p

/-- The value of a literal before any conversion. -/
def ofLiteral : Literal → Value
  | .int i => .int .signed .w64 i.toBitVec
  | .float x => .float .double x

def number : Value → Number
  | .bool b => .int (if b then 1 else 0)
  | .int s _ bits => .int (s.read bits)
  | .float _ x => .real (x.convert .double)
  | .complex _ re im => .complex (re.convert .double) (im.convert .double)

/-- Conversion to a type. A value of that type stays as it is, bit for bit. -/
def cast (v : Value) (t : NumType) : Value := if v.type = t then v else v.number.toValue t

def text : Value → String
  | .bool b => if b then "true" else "false"
  | .int s _ bits => intText (s.read bits)
  | .float _ x => x.text
  | .complex _ re im => "(" ++ re.text ++ ", " ++ im.text ++ ")"

end Value

end ScalarLowering
