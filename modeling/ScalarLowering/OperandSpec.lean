import ScalarLowering.Value

set_option autoImplicit false

/- Operands as they are described on a command line: literals, parameters with
or without a bound value, arrays, and tuples of these. -/

namespace ScalarLowering

inductive OperandSpec where
  | literal (value : Literal)
  | param (type : NumType) (value : Option Literal)
  | array (length : Option UInt64)
  | tuple (items : List OperandSpec)
deriving Repr

/-- How deep tuples may nest. -/
def maxTupleDepth : Nat := 16

/-- Why a text describes no operand. -/
inductive OperandError where
  | empty
  | unknown (text : String)
  | invalidBinding (type : NumType) (value : String)
  | invalidLength (text : String)
  | unbalanced (text : String)
  | tooDeep
deriving DecidableEq, Repr

def OperandError.message : OperandError → String
  | .empty => "empty operand"
  | .unknown text =>
    "unknown operand `" ++ text ++ "`: expected a literal, a type name, `array[N]` or a tuple"
  | .invalidBinding type value =>
    "invalid value `" ++ value ++ "` for a " ++ type.name ++ " parameter"
  | .invalidLength text =>
    "invalid array length `" ++ text ++ "`: expected a non-negative integer or `?`"
  | .unbalanced text => "unbalanced parentheses in `" ++ text ++ "`"
  | .tooDeep => "tuples nest deeper than " ++ toString maxTupleDepth ++ " levels"

end ScalarLowering
