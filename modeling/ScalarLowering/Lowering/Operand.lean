import ScalarLowering.Kernel
import ScalarLowering.NumType.Promotion

set_option autoImplicit false

/- Operands of a call, and the reasons to decline one. -/

namespace ScalarLowering

/-- An operand of a call: a literal, a tuple of known size, or a value of the kernel. -/
inductive Operand where
  | literal (l : Literal)
  | tuple (items : List Operand)
  | value (id : ValueId)
deriving Repr

/-- Why a call is declined. Indices count the operands from zero. -/
inductive Decline where
  | arity (expected found : Nat)
  | minArity (min found : Nat)
  | operandKind (index : Nat)
  | operandType (index : Nat) (type : NumType)
  | typeMismatch (index : Nat) (expected found : NumType)
  | noStaticLength
deriving DecidableEq, Repr

def Decline.message : Decline → String
  | .arity expected found =>
    "expected " ++ toString expected ++ " operand(s), found " ++ toString found
  | .minArity min found =>
    "expected at least " ++ toString min ++ " operands, found " ++ toString found
  | .operandKind index => "operand " ++ toString index ++ " is not a scalar"
  | .operandType index type =>
    "operand " ++ toString index ++ " has unsupported type " ++ type.name
  | .typeMismatch index expected found =>
    "operand " ++ toString index ++ " has type " ++ found.name ++ ", expected " ++ expected.name
  | .noStaticLength => "operand has no statically known length"

/-- An operand that is known to be a scalar. -/
inductive ScalarOperand where
  | literal (l : Literal)
  | value (id : ValueId) (type : NumType)
deriving DecidableEq, Repr

namespace ScalarOperand

def candidate : ScalarOperand → Candidate
  | .literal l => l.candidate
  | .value _ t => .typed t

def type (o : ScalarOperand) : NumType := o.candidate.type

end ScalarOperand

namespace Operand

/-- A scalar is a literal or a defined value of scalar type. -/
def scalar? (k : Kernel) : Operand → Option ScalarOperand
  | .literal l => some (.literal l)
  | .tuple _ => none
  | .value id => (k.scalarType? id).map (.value id)

/-- The number of elements of a tuple, or of an array of known length. -/
def length? (k : Kernel) : Operand → Option Nat
  | .literal _ => none
  | .tuple items => some items.length
  | .value id => (k.staticLength? id).map (·.toNat)

/-- The operand at a position, which has to be a scalar. -/
def scalarAt (k : Kernel) (index : Nat) (o : Operand) : Except Decline ScalarOperand :=
  match o.scalar? k with
  | some s => .ok s
  | none => .error (.operandKind index)

/-- The operands from a position on, all of which have to be scalars. -/
def scalarsFrom (k : Kernel) : Nat → List Operand → Except Decline (List ScalarOperand)
  | _, [] => .ok []
  | index, o :: os => do return (← o.scalarAt k index) :: (← scalarsFrom k (index + 1) os)

/-- The only operand of a call. -/
def only : List Operand → Except Decline Operand
  | [o] => .ok o
  | os => .error (.arity 1 os.length)

end Operand

end ScalarLowering
