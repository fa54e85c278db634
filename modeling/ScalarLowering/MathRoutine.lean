import ScalarLowering.Binary.Arithmetic
import ScalarLowering.Binary.Elementary
import ScalarLowering.Value

set_option autoImplicit false

/- The external math routines that kernels call, by symbol. A symbol is a base
name, followed by `f` for arguments of single precision; a routine answers only
to arguments of the number, kind and precision it was compiled for. -/

namespace ScalarLowering

namespace Binary

/-- The exponential of a complex number. -/
def complexExp (re im : Binary .double) : Binary .double × Binary .double :=
  let scale := re.exp
  (scale.mul im.cos, scale.mul im.sin)

/-- The principal square root of a complex number. Its imaginary part has the sign of `im`. -/
def complexSqrt (re im : Binary .double) : Binary .double × Binary .double :=
  let modulus := re.hypot im
  ((modulus.add re).half.sqrt, (modulus.sub re).half.sqrt.withSignOf im)

end Binary

namespace MathRoutine

/-- The base name of a symbol for arguments of precision `p`. -/
def base? (p : Precision) (symbol : String) : Option String :=
  match p with
  | .double => some symbol
  | .single =>
    if symbol.toList.getLast? = some 'f' then some (String.ofList symbol.toList.dropLast) else none

/-- The routines on one real argument. -/
def unary? {p : Precision} (base : String) (x : Binary p) : Option (Binary p) :=
  match base with
  | "fabs" => some x.abs
  | "floor" => some x.floor
  | "log" => some x.log
  | "sqrt" => some x.sqrt
  | "exp" => some x.exp
  | "sin" => some x.sin
  | "cos" => some x.cos
  | "tanh" => some x.tanh
  | _ => none

/-- The value of a pair of doubles as a complex number of precision `p`. -/
def complexOf (p : Precision) (z : Binary .double × Binary .double) : Value :=
  .complex p (z.1.convert p) (z.2.convert p)

/-- The routines on one complex argument. All but the magnitude compute at double precision. -/
def complex? {p : Precision} (base : String) (re im : Binary p) : Option Value :=
  match base with
  | "cabs" => some (.float p (re.hypot im))
  | "cexp" => some (complexOf p (Binary.complexExp (re.convert .double) (im.convert .double)))
  | "csqrt" => some (complexOf p (Binary.complexSqrt (re.convert .double) (im.convert .double)))
  | _ => none

/-- The result of a routine, if one with this symbol takes these arguments. -/
def call? (symbol : String) : List Value → Option Value
  | [.float p x] => (base? p symbol).bind fun base => (unary? base x).map (.float p)
  | [.complex p re im] => (base? p symbol).bind fun base => complex? base re im
  | [.float .double y, .float .double x] =>
    if symbol = "atan2" then some (.float .double (y.atan2 x)) else none
  | [.float .single y, .float .single x] =>
    if symbol = "atan2f" then some (.float .single (y.atan2 x)) else none
  | _ => none

end MathRoutine

end ScalarLowering
