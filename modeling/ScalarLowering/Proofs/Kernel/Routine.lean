import Mathlib.Data.List.Basic
import ScalarLowering.MathSymbol
import ScalarLowering.Proofs.Outcome
import ScalarLowering.Proofs.Value.Magnitude
import ScalarLowering.Vocabulary.Callable

set_option autoImplicit false

/- The routines that calls are lowered to, as functions of values. Each has one
exported symbol for each type of arguments, and under this symbol the library
answers with a value of the type that the call is recorded with. Only the error
function is missing from the library. -/

namespace ScalarLowering

/-- The functions of one real argument that the library has. -/
def MathFunction.real? {p : Precision} (x : Binary p) : MathFunction → Option (Binary p)
  | .floor => some x.floor
  | .log => some x.log
  | .sqrt => some x.sqrt
  | .exp => some x.exp
  | .sin => some x.sin
  | .cos => some x.cos
  | .tanh => some x.tanh
  | .erf | .atan2 => none

/-- The symbol under which the error function is looked for. -/
def erfSymbol : Precision → String
  | .single => "erff"
  | .double => "erf"

/-- A function of the math module on arguments of one floating type. -/
def MathFunction.meaning? (f : MathFunction) : List Value → Option (Except EvalError Value)
  | [.float p x] =>
    match f with
    | .erf => some (.error (.unknownSymbol (erfSymbol p) 1))
    | f => (f.real? x).map fun y => .ok (.float p y)
  | [.float .single y, .float .single x] =>
    match f with
    | .atan2 => some (.ok (.float .single (y.atan2 x)))
    | _ => none
  | [.float .double y, .float .double x] =>
    match f with
    | .atan2 => some (.ok (.float .double (y.atan2 x)))
    | _ => none
  | _ => none

/-- A helper on a floating or complex argument. -/
def HelperFunction.meaning? : HelperFunction → Value → Option Value
  | .exp, .float p x => some (.float p x.exp)
  | .sqrt, .float p x => some (.float p x.sqrt)
  | .exp, .complex p re im =>
    some (MathRoutine.complexOf p (Binary.complexExp (re.convert .double) (im.convert .double)))
  | .sqrt, .complex p re im =>
    some (MathRoutine.complexOf p (Binary.complexSqrt (re.convert .double) (im.convert .double)))
  | _, _ => none

inductive Routine where
  | magnitude
  | math (f : MathFunction)
  | helper (f : HelperFunction)
deriving DecidableEq, Repr

namespace Routine

/-- The name that the exported symbols are made from. -/
def name : Routine → String
  | .magnitude => Builtin.abs.name
  | .math f => f.name
  | .helper f => f.name

/-- Whether the symbols for real arguments carry a mark of their own. -/
def realMark : Routine → Bool
  | .magnitude => true
  | .math _ | .helper _ => false

def symbol? (r : Routine) (t : NumType) : Option String := mathSymbol? r.name t r.realMark

def arity : Routine → Nat
  | .math f => f.arity
  | .magnitude | .helper _ => 1

/-- The types that arguments can have. The math module has no complex functions. -/
def accepts : Routine → NumType → Bool
  | .math _, t => t.isFloat
  | .magnitude, t | .helper _, t => t.isFloat || t.isComplex

/-- The type of the result for arguments of a type. -/
def result : Routine → NumType → NumType
  | .magnitude, t => t.realType
  | .math _, t | .helper _, t => t

def meaning? : Routine → List Value → Option (Except EvalError Value)
  | .magnitude, [v] => v.magnitude?.map .ok
  | .math f, vs => f.meaning? vs
  | .helper f, [v] => (f.meaning? v).map .ok
  | _, _ => none

end Routine

/-- The library has no error function. -/
def EvalError.LacksErf (e : EvalError) : Prop := ∃ p, e = .unknownSymbol (erfSymbol p) 1

namespace Routine

/-- The library exports symbols for floating and complex arguments only. -/
theorem numeric_of_symbol? {r : Routine} {t : NumType} {symbol : String}
    (exported : r.symbol? t = some symbol) : (t.isFloat || t.isComplex) = true := by
  cases t with
  | bool => cases exported
  | int s w => cases exported
  | float p => rfl
  | complex p => rfl

theorem call_of_ok {symbol : String} {vs : List Value} {t : NumType} {v : Value}
    (answer : MathRoutine.call? symbol vs = some v) (typed : v.type = t) :
    MathRoutine.call symbol vs t = .ok v := by
  simp only [MathRoutine.call, answer, typed, if_true]

theorem call_magnitude {symbol : String} {v : Value} {t : NumType}
    (accepted : magnitude.accepts t = true) (exported : magnitude.symbol? t = some symbol)
    (typed : v.type = t) :
    ∃ w, v.magnitude? = some w ∧ MathRoutine.call symbol [v] t.realType = .ok w ∧
      w.type = t.realType := by
  cases t with
  | bool => cases accepted
  | int s w => cases accepted
  | float p =>
    obtain ⟨x, rfl⟩ := Value.eq_float_of_type typed
    refine ⟨.float p x.abs, rfl, call_of_ok ?_ rfl, rfl⟩
    cases p <;> cases exported <;> rfl
  | complex p =>
    obtain ⟨re, im, rfl⟩ := Value.eq_complex_of_type typed
    refine ⟨.float p (re.hypot im), rfl, call_of_ok ?_ rfl, rfl⟩
    cases p <;> cases exported <;> rfl

theorem call_helper {f : HelperFunction} {symbol : String} {v : Value} {t : NumType}
    (accepted : (helper f).accepts t = true) (exported : (helper f).symbol? t = some symbol)
    (typed : v.type = t) :
    ∃ w, f.meaning? v = some w ∧ MathRoutine.call symbol [v] t = .ok w ∧ w.type = t := by
  cases t with
  | bool => cases accepted
  | int s w => cases accepted
  | float p =>
    obtain ⟨x, rfl⟩ := Value.eq_float_of_type typed
    cases f with
    | exp =>
      refine ⟨.float p x.exp, rfl, call_of_ok ?_ rfl, rfl⟩
      cases p <;> cases exported <;> rfl
    | sqrt =>
      refine ⟨.float p x.sqrt, rfl, call_of_ok ?_ rfl, rfl⟩
      cases p <;> cases exported <;> rfl
  | complex p =>
    obtain ⟨re, im, rfl⟩ := Value.eq_complex_of_type typed
    cases f with
    | exp =>
      refine ⟨MathRoutine.complexOf p _, rfl, call_of_ok ?_ rfl, rfl⟩
      cases p <;> cases exported <;> rfl
    | sqrt =>
      refine ⟨MathRoutine.complexOf p _, rfl, call_of_ok ?_ rfl, rfl⟩
      cases p <;> cases exported <;> rfl

theorem call_real {f : MathFunction} {symbol : String} {p : Precision} (x : Binary p)
    (single : f.arity = 1) (exported : (math f).symbol? (.float p) = some symbol) :
    ∃ outcome, f.meaning? [.float p x] = some outcome ∧
      MathRoutine.call symbol [.float p x] (.float p) = outcome ∧
      Outcome EvalError.LacksErf (.float p) outcome := by
  cases f with
  | atan2 => cases single
  | erf =>
    refine ⟨_, rfl, ?_, p, rfl⟩
    cases p <;> cases exported <;> rfl
  | _ =>
    refine ⟨_, rfl, call_of_ok ?_ rfl, rfl⟩
    cases p <;> cases exported <;> rfl

theorem call_math {f : MathFunction} {symbol : String} {vs : List Value} {t : NumType}
    (accepted : (math f).accepts t = true) (exported : (math f).symbol? t = some symbol)
    (typed : ∀ v ∈ vs, v.type = t) (count : vs.length = f.arity) :
    ∃ outcome, f.meaning? vs = some outcome ∧ MathRoutine.call symbol vs t = outcome ∧
      Outcome EvalError.LacksErf t outcome := by
  cases t with
  | bool => cases accepted
  | int s w => cases accepted
  | complex p => cases accepted
  | float p =>
    by_cases pair : f = .atan2
    · subst pair
      obtain ⟨a, b, rfl⟩ := List.length_eq_two.mp count
      obtain ⟨y, rfl⟩ := Value.eq_float_of_type (typed a List.mem_cons_self)
      obtain ⟨x, rfl⟩ := Value.eq_float_of_type
        (typed b (List.mem_cons_of_mem _ List.mem_cons_self))
      cases p <;> cases exported <;> exact ⟨_, rfl, rfl, rfl⟩
    · have single : f.arity = 1 := by
        cases f with
        | atan2 => exact absurd rfl pair
        | _ => rfl
      rw [single] at count
      obtain ⟨v, rfl⟩ := List.length_eq_one_iff.mp count
      obtain ⟨x, rfl⟩ := Value.eq_float_of_type (typed v List.mem_cons_self)
      exact call_real x single exported

/-- A call under an exported symbol does what the routine does. -/
theorem call_eq (r : Routine) {symbol : String} {vs : List Value} {t : NumType}
    (accepted : r.accepts t = true) (exported : r.symbol? t = some symbol)
    (typed : ∀ v ∈ vs, v.type = t) (count : vs.length = r.arity) :
    ∃ outcome, r.meaning? vs = some outcome ∧ MathRoutine.call symbol vs (r.result t) = outcome ∧
      Outcome EvalError.LacksErf (r.result t) outcome := by
  cases r with
  | magnitude =>
    obtain ⟨v, rfl⟩ := List.length_eq_one_iff.mp count
    obtain ⟨w, known, called, type⟩ := call_magnitude accepted exported (typed v List.mem_cons_self)
    exact ⟨.ok w, by simp [meaning?, known], called, type⟩
  | math f => exact call_math accepted exported typed count
  | helper f =>
    obtain ⟨v, rfl⟩ := List.length_eq_one_iff.mp count
    obtain ⟨w, known, called, type⟩ := call_helper accepted exported (typed v List.mem_cons_self)
    exact ⟨.ok w, by simp [meaning?, known], called, type⟩

end Routine

end ScalarLowering
