import ScalarLowering.Kernel.Builder
import ScalarLowering.Lowering.Operand
import ScalarLowering.OperandSpec

set_option autoImplicit false

/- Turning described operands into operands of a call: each parameter and array
becomes a parameter of the kernel, numbered from left to right, and bound values
are converted to the type of their parameter. -/

namespace ScalarLowering

/-- The values that parameters are bound to, by index, in the order of binding. -/
abbrev Bindings := List (Nat × Value)

/-- The value a parameter was bound to last. -/
def Bindings.value? (bindings : Bindings) (index : Nat) : Option Value :=
  bindings.foldl (fun bound (i, v) => if i = index then some v else bound) none

/-- Operands together with what is known of the parameters they brought along. -/
structure Materialized where
  operands : List Operand
  bindings : Bindings
  /-- Whether every scalar parameter has a value. -/
  fullyBound : Bool

namespace Materialized

def empty : Materialized := ⟨[], [], true⟩

def append (m n : Materialized) : Materialized :=
  ⟨m.operands ++ n.operands, m.bindings ++ n.bindings, m.fullyBound && n.fullyBound⟩

end Materialized

namespace OperandSpec

/-- The element type of the arrays that operands describe. -/
def arrayElem : NumType := .float64

mutual

def materialize : OperandSpec → Build Materialized
  | .literal l => return ⟨[.literal l], [], true⟩
  | .param t value => do
    let index := (← get).paramCount
    let id ← Build.param t
    match value with
    | some l => return ⟨[.value id], [(index, (Value.ofLiteral l).cast t)], true⟩
    | none => return ⟨[.value id], [], false⟩
  | .array length => do return ⟨[.value (← Build.arrayParam arrayElem length)], [], true⟩
  | .tuple items => do
    let m ← materializeAll items
    return { m with operands := [.tuple m.operands] }

def materializeAll : List OperandSpec → Build Materialized
  | [] => return .empty
  | spec :: specs => do return (← materialize spec).append (← materializeAll specs)

end

end OperandSpec

end ScalarLowering
