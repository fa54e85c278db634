import ScalarLowering.NumType

set_option autoImplicit false

/- The common type that operands are converted to before they are combined.
Integers never widen a floating type, a complex type absorbs the precision of
a real one, and integers of mixed signedness meet in a signed type that holds
the unsigned range as far as 64 bits reach. -/

namespace ScalarLowering

namespace NumType

/-- The common type of two types. `bool` yields to every other type. -/
def promote : NumType → NumType → NumType
  | .bool, t => t
  | t, .bool => t
  | .int .signed v, .int .signed w => .int .signed (max v w)
  | .int .unsigned v, .int .unsigned w => .int .unsigned (max v w)
  | .int .signed v, .int .unsigned w => .int .signed (max v w.doubled)
  | .int .unsigned v, .int .signed w => .int .signed (max w v.doubled)
  | .int .., t => t
  | t, .int .. => t
  | .float p, .float q => .float (max p q)
  | .float p, .complex q => .complex (max p q)
  | .complex p, .float q => .complex (max p q)
  | .complex p, .complex q => .complex (max p q)

theorem promote_self (t : NumType) : promote t t = t := by
  cases t with
  | bool => rfl
  | int s w => cases s <;> cases w <;> rfl
  | float p => cases p <;> rfl
  | complex p => cases p <;> rfl

end NumType

/-- What an operand contributes to promotion: a literal or a value of known type. -/
inductive Candidate where
  | intLiteral
  | floatLiteral
  | typed (type : NumType)
deriving DecidableEq, Repr

namespace Candidate

/-- Integer literals take part as `int64`, floating literals as `float64`. -/
def type : Candidate → NumType
  | .intLiteral => .int64
  | .floatLiteral => .float64
  | .typed t => t

end Candidate

/-- The common type of the candidates, combined from the left; `none` without candidates. -/
def broadcastType : List Candidate → Option NumType
  | [] => none
  | first :: rest => some (rest.foldl (fun t c => t.promote c.type) first.type)

end ScalarLowering
