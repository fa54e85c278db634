import ScalarLowering.Kernel.Evaluation
import ScalarLowering.Lowering.Registry
import ScalarLowering.OperandSpec.Materialize

set_option autoImplicit false

/- Lowering a call site: its key is resolved in a registry and its operands are
handed to the handler. -/

namespace ScalarLowering

/-- Why a call site cannot be lowered. -/
inductive LoweringError where
  | unknownBuiltin (key : Key)
  /-- The handler of the named builtin declined the operands. -/
  | unsupported (builtin : String) (reason : Decline)
deriving DecidableEq, Repr

namespace LoweringError

def message : LoweringError → String
  | .unknownBuiltin key => "no lowering registered for `" ++ key.text ++ "`"
  | .unsupported builtin reason => "cannot lower `" ++ builtin ++ "`: " ++ reason.message

/-- The diagnostic code. -/
def code : LoweringError → String
  | .unknownBuiltin _ => "numjit::lower::unknown_builtin"
  | .unsupported .. => "numjit::lower::unsupported"

def help : LoweringError → String
  | .unknownBuiltin _ => "run `numjit builtins` to list the registered keys"
  | .unsupported .. => "the operands do not match any supported signature of this builtin"

end LoweringError

namespace Registry

/-- Lowers a call and returns its result. -/
def lowerCall (r : Registry) (key : Key) (args : List Operand) :
    Build (Except LoweringError ValueId) := do
  match r.resolve? key with
  | none => return .error (.unknownBuiltin key)
  | some (name, handler) => return (← handler.lower args).mapError (.unsupported name)

end Registry

/-- A call lowered on its own: the kernel it was lowered in, the operands, and the outcome. -/
structure LoweredCall where
  kernel : Kernel
  operands : Materialized
  result : Except LoweringError ValueId

namespace LoweredCall

/-- Lowers a call on described operands in an empty kernel. -/
def ofSpecs (r : Registry) (key : Key) (specs : List OperandSpec) :
    Except Violation LoweredCall := do
  let build : Build (Materialized × Except LoweringError ValueId) := do
    let m ← OperandSpec.materializeAll specs
    return (m, ← r.lowerCall key m.operands)
  let ((operands, result), kernel) ← build.run .empty
  return { kernel, operands, result }

/-- The value of `id` under the bound operands; none if it has no end. -/
def eval? (c : LoweredCall) (id : ValueId) : Option (Except EvalError Value) :=
  c.kernel.eval? c.operands.bindings.value? id

end LoweredCall

end ScalarLowering
