import ScalarLowering.Lowering.Plan
import ScalarLowering.MathSymbol
import ScalarLowering.Vocabulary.Callable

set_option autoImplicit false

/- The strategies for lowering a call. A handler first plans the call, which
looks at the kernel but changes nothing; a call that it declines leaves no
trace. -/

namespace ScalarLowering

inductive Handler where
  | cast (type : NumType)
  | len
  | extremum (which : Extremum)
  | abs
  /-- A function of the math module, on integers and floating numbers. -/
  | math (f : MathFunction)
  /-- A helper, which takes complex numbers as well. -/
  | helper (f : HelperFunction)
deriving DecidableEq, Repr

def Handler.text : Handler → String
  | .cast t => "cast -> " ++ t.name
  | .len => "len"
  | .extremum .min => "min"
  | .extremum .max => "max"
  | .abs => "abs"
  | .math f => "libm " ++ f.name ++ "/" ++ toString f.arity
  | .helper f => "libm helper " ++ f.name

namespace Plan

/-- A call of the routine for `name` at `argType`; declined for a type that has none. -/
def routine (name : String) (realMark : Bool) (args : List ScalarOperand)
    (argType resultType : NumType) (declined : NumType) : Except Decline Plan :=
  match mathSymbol? name argType realMark with
  | some symbol => .ok (.call symbol args argType resultType)
  | none => .error (.operandType 0 declined)

def ofCast (k : Kernel) (t : NumType) (args : List Operand) : Except Decline Plan := do
  return .cast (← (← Operand.only args).scalarAt k 0) t

/-- A length has to fit an `int64`. -/
def ofLen (k : Kernel) (args : List Operand) : Except Decline Plan := do
  match (← Operand.only args).length? k with
  | some n =>
    if (n : Int) ≤ Int64.maxValue.toInt then return .length (Int64.ofNat n)
    else throw .noStaticLength
  | none => throw .noStaticLength

def firstComplex? (operands : List ScalarOperand) : Option (ScalarOperand × Nat) :=
  operands.zipIdx.find? fun (o, _) => o.type.isComplex

/-- Complex numbers have no order, so that none may take part. -/
def ofExtremum (k : Kernel) (which : Extremum) (args : List Operand) : Except Decline Plan := do
  if args.length < 2 then throw (.minArity 2 args.length)
  let operands ← Operand.scalarsFrom k 0 args
  match firstComplex? operands, operands.getLast? with
  | some (o, index), _ => throw (.operandType index o.type)
  | none, some last => return .extremum which operands.dropLast last
  | none, none => throw (.minArity 2 args.length)

/-- Integers are negated where they are negative, other numbers go to the routine for their
magnitude, and a `bool` has neither. -/
def ofAbs (k : Kernel) (args : List Operand) : Except Decline Plan := do
  let o ← (← Operand.only args).scalarAt k 0
  if o.type.isInt then return .integerAbs o
  else routine Builtin.abs.name true [o] o.type o.type.realType o.type

/-- The operands from a position on, all of which have to be scalars of type `t`. -/
def sameTypeFrom (k : Kernel) (t : NumType) :
    Nat → List Operand → Except Decline (List ScalarOperand)
  | _, [] => .ok []
  | index, arg :: args => do
    let o ← arg.scalarAt k index
    if o.type = t then return o :: (← sameTypeFrom k t (index + 1) args)
    else throw (.typeMismatch index t o.type)

/-- Single-precision operands are passed on, all other numbers as doubles. -/
def ofMath (k : Kernel) (f : MathFunction) (args : List Operand) : Except Decline Plan := do
  if args.length ≠ f.arity then throw (.arity f.arity args.length)
  match args with
  | [] => throw (.arity f.arity 0)
  | first :: rest =>
    let o ← first.scalarAt k 0
    unless o.type.isInt || o.type.isFloat do throw (.operandType 0 o.type)
    let os ← sameTypeFrom k o.type 1 rest
    let t := if o.type = .float32 then .float32 else .float64
    routine f.name false (o :: os) t t o.type

/-- Integers are passed as doubles, floating and complex numbers as what they are. -/
def ofHelper (k : Kernel) (f : HelperFunction) (args : List Operand) : Except Decline Plan := do
  let o ← (← Operand.only args).scalarAt k 0
  let t := if o.type.isInt then .float64 else o.type
  routine f.name false [o] t t o.type

end Plan

namespace Handler

/-- How a call is lowered in a kernel, or why it is declined. -/
def plan (h : Handler) (k : Kernel) (args : List Operand) : Except Decline Plan :=
  match h with
  | .cast t => Plan.ofCast k t args
  | .len => Plan.ofLen k args
  | .extremum which => Plan.ofExtremum k which args
  | .abs => Plan.ofAbs k args
  | .math f => Plan.ofMath k f args
  | .helper f => Plan.ofHelper k f args

/-- Lowers a call and returns its result. -/
def lower (h : Handler) (args : List Operand) : Build (Except Decline ValueId) := do
  match h.plan (← get) args with
  | .error reason => return .error reason
  | .ok plan => return .ok (← plan.emit)

end Handler

end ScalarLowering
