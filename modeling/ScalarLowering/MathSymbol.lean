import ScalarLowering.NumType

set_option autoImplicit false

/- The names under which a C math library exports one operation: single
precision ends in `f`, complex arguments are marked by a leading `c`, and a
few real operations, such as `fabs`, by a leading `f`. -/

namespace ScalarLowering

/-- The exported name of the operation `name` on arguments of type `t`, if the library has
one. `realMark` puts the leading `f` on real variants and leaves complex ones alone. -/
def mathSymbol? (name : String) (t : NumType) (realMark : Bool) : Option String :=
  match t with
  | .float p => some ((if realMark then "f" else "") ++ name ++ tail p)
  | .complex p => some ("c" ++ name ++ tail p)
  | _ => none
where
  tail : Precision → String
    | .single => "f"
    | .double => ""

end ScalarLowering
