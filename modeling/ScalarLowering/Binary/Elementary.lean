import ScalarLowering.Binary

set_option autoImplicit false

/- The transcendental functions, evaluated by the machine's math library at the
precision of their argument. A NaN passes through unchanged. -/

namespace ScalarLowering

namespace Binary

private def ofFloat (x : Float) : Binary .double := ofBits .double x.toBits.toBitVec
private def toFloat (x : Binary .double) : Float := Float.ofBits ⟨x.toBits⟩
private def ofFloat32 (x : Float32) : Binary .single := ofBits .single x.toBits.toBitVec
private def toFloat32 (x : Binary .single) : Float32 := Float32.ofBits ⟨x.toBits⟩

private def byMachine (onDouble : Float → Float) (onSingle : Float32 → Float32) :
    {p : Precision} → Binary p → Binary p
  | .double, x => if x.isNaN then x else ofFloat (onDouble x.toFloat)
  | .single, x => if x.isNaN then x else ofFloat32 (onSingle x.toFloat32)

variable {p : Precision}

def exp (x : Binary p) : Binary p := byMachine Float.exp Float32.exp x
def log (x : Binary p) : Binary p := byMachine Float.log Float32.log x
def sin (x : Binary p) : Binary p := byMachine Float.sin Float32.sin x
def cos (x : Binary p) : Binary p := byMachine Float.cos Float32.cos x
def tanh (x : Binary p) : Binary p := byMachine Float.tanh Float32.tanh x

/-- The angle of the point with ordinate `y` and abscissa `x`. -/
def atan2 : {p : Precision} → Binary p → Binary p → Binary p
  | .double, y, x =>
    if y.isNaN then y else if x.isNaN then x else ofFloat (Float.atan2 y.toFloat x.toFloat)
  | .single, y, x =>
    if y.isNaN then y else if x.isNaN then x else ofFloat32 (Float32.atan2 y.toFloat32 x.toFloat32)

end Binary

end ScalarLowering
