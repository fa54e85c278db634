import ScalarLowering.Kernel
import ScalarLowering.MathRoutine

set_option autoImplicit false

/- Computing the value that a kernel gives to an identifier. A list of pending
values drives the computation: the value on top is computed once all operands it
needs are known, and until then its first unknown operand is put on top of it.
Of a `select` only the chosen branch is needed. -/

namespace ScalarLowering

/-- Why a value cannot be computed. -/
inductive EvalError where
  | undefinedValue (id : ValueId)
  | unbound (index : Nat)
  | bindingType (index : Nat) (expected : ValueType) (found : NumType)
  | notScalar (id : ValueId)
  | unordered (type : NumType)
  | nonBoolCondition (id : ValueId)
  | invalidNegation (type : NumType)
  | unknownSymbol (symbol : String) (arity : Nat)
  | returnType (symbol : String) (expected found : NumType)
deriving DecidableEq, Repr

def EvalError.message : EvalError → String
  | .undefinedValue id => "value " ++ id.text ++ " is not defined"
  | .unbound index => "parameter " ++ toString index ++ " is not bound"
  | .bindingType index expected found =>
    "parameter " ++ toString index ++ " has type " ++ expected.text ++ " but was bound to a " ++
      found.name ++ " value"
  | .notScalar id => "value " ++ id.text ++ " is not a scalar"
  | .unordered type => type.name ++ " values are unordered"
  | .nonBoolCondition id => "select condition " ++ id.text ++ " is not a bool"
  | .invalidNegation type => "cannot negate a " ++ type.name ++ " value"
  | .unknownSymbol symbol arity =>
    "unknown external symbol `" ++ symbol ++ "` for " ++ toString arity ++ " argument(s)"
  | .returnType symbol expected found =>
    "`" ++ symbol ++ "` produced a " ++ found.name ++ " value but the call returns " ++
      expected.name

/-- A comparison of two computed values. -/
def Predicate.apply (predicate : Predicate) (a b : Value) : Except EvalError Value :=
  match a.compare? predicate b with
  | some truth => .ok (.bool truth)
  | none => .error (.unordered a.type)

def Value.negate (v : Value) : Except EvalError Value :=
  match v.neg? with
  | some w => .ok w
  | none => .error (.invalidNegation v.type)

/-- An external call that is to return a value of type `t`. -/
def MathRoutine.call (symbol : String) (args : List Value) (t : NumType) :
    Except EvalError Value :=
  match MathRoutine.call? symbol args with
  | none => .error (.unknownSymbol symbol args.length)
  | some v => if v.type = t then .ok v else .error (.returnType symbol t v.type)

/-- A parameter that is to have type `t`. -/
def boundValue (bound : Nat → Option Value) (index : Nat) (t : NumType) :
    Except EvalError Value :=
  match bound index with
  | none => .error (.unbound index)
  | some v => if v.type = t then .ok v else .error (.bindingType index (.scalar t) v.type)

/-- The values computed so far, by position. -/
abbrev Memo := Array (Option Value)

namespace Memo

def known? (memo : Memo) (id : ValueId) : Option Value := memo[id.index]?.join

/-- The value of an operand. -/
def operand (memo : Memo) (id : ValueId) : Except EvalError Value :=
  match memo.known? id with
  | some v => .ok v
  | none => .error (.undefinedValue id)

def firstUnknown? (memo : Memo) (ids : List ValueId) : Option ValueId :=
  ids.find? fun id => (memo.known? id).isNone

/-- The operand that has to be computed next, if one is missing. -/
def missingOperand? (memo : Memo) : Operation → Except EvalError (Option ValueId)
  | .param _ | .const _ => .ok none
  | .cast source => .ok (memo.firstUnknown? [source])
  | .neg operand => .ok (memo.firstUnknown? [operand])
  | .compare _ lhs rhs => .ok (memo.firstUnknown? [lhs, rhs])
  | .select condition onTrue onFalse =>
    match memo.known? condition with
    | none => .ok (some condition)
    | some (.bool b) => .ok (memo.firstUnknown? [if b then onTrue else onFalse])
    | some _ => .error (.nonBoolCondition condition)
  | .call _ args _ _ => .ok (memo.firstUnknown? args)

/-- The value of the instruction that defines `id`, from the values of its operands. -/
def compute (memo : Memo) (bound : Nat → Option Value) (id : ValueId) (i : Instruction) :
    Except EvalError Value :=
  match i.type with
  | .array .. => .error (.notScalar id)
  | .scalar t =>
    match i.operation with
    | .param index => boundValue bound index t
    | .const value => .ok value
    | .cast source => do return (← memo.operand source).cast t
    | .compare predicate lhs rhs => do predicate.apply (← memo.operand lhs) (← memo.operand rhs)
    | .select condition onTrue onFalse => do
      match ← memo.operand condition with
      | .bool b => memo.operand (if b then onTrue else onFalse)
      | _ => .error (.nonBoolCondition condition)
    | .neg operand => do (← memo.operand operand).negate
    | .call symbol args _ _ => do MathRoutine.call symbol (← args.mapM memo.operand) t

end Memo

/-- The state of a computation: what is known, and what is pending with the top in front. -/
structure Evaluation where
  memo : Memo
  pending : List ValueId

namespace Evaluation

def start (k : Kernel) (id : ValueId) : Evaluation := ⟨Array.replicate k.size none, [id]⟩

/-- One step on the value on top. -/
def step (k : Kernel) (bound : Nat → Option Value) : Evaluation → Except EvalError Evaluation
  | ⟨memo, []⟩ => .ok ⟨memo, []⟩
  | ⟨memo, top :: rest⟩ =>
    if (memo.known? top).isSome then .ok ⟨memo, rest⟩
    else
      match k.instruction? top with
      | none => .error (.undefinedValue top)
      | some i =>
        match memo.missingOperand? i.operation with
        | .error e => .error e
        | .ok (some operand) => .ok ⟨memo, operand :: top :: rest⟩
        | .ok none =>
          match memo.compute bound top i with
          | .error e => .error e
          | .ok v => .ok ⟨memo.setIfInBounds top.index (some v), rest⟩

/-- The value of `id` after at most `fuel` steps; none if values are still pending then. -/
def run (k : Kernel) (bound : Nat → Option Value) (id : ValueId) :
    Nat → Evaluation → Option (Except EvalError Value)
  | fuel, s =>
    if s.pending.isEmpty then some (s.memo.operand id)
    else
      match fuel with
      | 0 => none
      | fuel + 1 =>
        match s.step k bound with
        | .error e => some (.error e)
        | .ok s => run k bound id fuel s

end Evaluation

/-- The value of `id`, or why it has none, under the bound parameters; none if the computation
does not come to an end. As long as no value depends on itself, each instruction is put on top
once and computed once, so that twice their number of steps is enough, and two for an undefined
value. When the steps run out, some value waits for itself and would do so forever. -/
def Kernel.eval? (k : Kernel) (bound : Nat → Option Value) (id : ValueId) :
    Option (Except EvalError Value) :=
  Evaluation.run k bound id (2 * k.size + 2) (.start k id)

end ScalarLowering
