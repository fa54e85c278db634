import ScalarLowering.Kernel.Builder
import ScalarLowering.Lowering.Operand

set_option autoImplicit false

/- What is recorded for a call once its operands are accepted. A plan holds all
that the checks found out, so that carrying it out cannot decline any more. -/

namespace ScalarLowering

inductive Extremum where
  | min
  | max
deriving DecidableEq, Repr

/-- The left of two operands is chosen if it is strictly smaller or, for `max`, larger. -/
def Extremum.predicate : Extremum → Predicate
  | .min => .lt
  | .max => .gt

inductive Plan where
  | cast (operand : ScalarOperand) (type : NumType)
  | length (n : Int64)
  /-- The operands before the last one, and the last one. -/
  | extremum (which : Extremum) (earlier : List ScalarOperand) (last : ScalarOperand)
  /-- The absolute value of an integer. -/
  | integerAbs (operand : ScalarOperand)
  /-- A call to a routine with all arguments of one type. -/
  | call (symbol : String) (args : List ScalarOperand) (argType resultType : NumType)
deriving DecidableEq, Repr

namespace ScalarOperand

/-- The operand as a value of type `t`: a literal becomes a constant, a value is converted. -/
def emitAs (o : ScalarOperand) (t : NumType) : Build ValueId :=
  match o with
  | .literal l => Build.constant l t
  | .value id _ => Build.cast id t

/-- The operand as a value of its own type. -/
def emit (o : ScalarOperand) : Build ValueId := o.emitAs o.type

end ScalarOperand

namespace Extremum

/-- The smaller or larger of two operands, at their common type. The right one is chosen where
neither is strictly ahead. -/
def combine (which : Extremum) (lhs rhs : ScalarOperand) : Build ScalarOperand := do
  let t := lhs.type.promote rhs.type
  let lhs ← lhs.emitAs t
  let rhs ← rhs.emitAs t
  let condition ← Build.compare which.predicate lhs rhs
  return .value (← Build.select condition lhs rhs) t

end Extremum

namespace Plan

def emit : Plan → Build ValueId
  | .cast operand t => operand.emitAs t
  | .length n => Build.constant (.int n) .int64
  | .extremum which earlier last => do (← earlier.foldrM which.combine last).emit
  | .integerAbs operand => do
    let value ← operand.emit
    let zero ← Build.constant (.int 0) operand.type
    let negative ← Build.compare .lt value zero
    let negated ← Build.neg value
    Build.select negative negated value
  | .call symbol args argType resultType => do
    let args ← args.mapM (·.emitAs argType)
    let template ← Build.constant (.int 0) resultType
    Build.call symbol args template false

end Plan

end ScalarLowering
