import ScalarLowering.Vocabulary.Entry

set_option autoImplicit false

/- The host functions that can be lowered: global builtins, functions of the
host's math module, and two helpers that also take complex operands. Each has a
registry key; the spelling in the host language differs from the key for
helpers only. All spellings are case-sensitive. -/

namespace ScalarLowering

private def exactly (s t : String) : Bool := s == t

inductive Builtin where
  | bool
  | int
  | float
  | len
  | min
  | max
  | abs
deriving DecidableEq, Hashable, Repr

namespace Builtin

def all : List Builtin := [.bool, .int, .float, .len, .min, .max, .abs]

theorem mem_all (b : Builtin) : b ∈ all := by cases b <;> decide

def entry : Builtin → Entry
  | .bool => { canonical := "bool", description := "Convert a value to a boolean." }
  | .int => { canonical := "int", description := "Convert a value to a 64-bit signed integer." }
  | .float => { canonical := "float", description := "Convert a value to a 64-bit float." }
  | .len =>
    { canonical := "len", description := "Return the statically known length of a container." }
  | .min => { canonical := "min", description := "Smallest of two or more values." }
  | .max => { canonical := "max", description := "Largest of two or more values." }
  | .abs => { canonical := "abs", description := "Absolute value (magnitude for complex)." }

/-- The canonical spelling, which is also the registry key. -/
def name (b : Builtin) : String := b.entry.canonical

def ofName? (spelling : String) : Option Builtin := Entry.lookup? exactly all entry spelling

end Builtin

inductive MathFunction where
  | floor
  | log
  | sqrt
  | exp
  | erf
  | sin
  | cos
  | tanh
  | atan2
deriving DecidableEq, Hashable, Repr

namespace MathFunction

def all : List MathFunction :=
  [.floor, .log, .sqrt, .exp, .erf, .sin, .cos, .tanh, .atan2]

theorem mem_all (f : MathFunction) : f ∈ all := by cases f <;> decide

def entry : MathFunction → Entry
  | .floor => { canonical := "floor", description := "Floor (round down)." }
  | .log => { canonical := "log", description := "Natural logarithm." }
  | .sqrt => { canonical := "sqrt", description := "Square root." }
  | .exp => { canonical := "exp", description := "Exponentiation (e^x)." }
  | .erf => { canonical := "erf", description := "Gauss error function." }
  | .sin => { canonical := "sin", description := "Sine." }
  | .cos => { canonical := "cos", description := "Cosine." }
  | .tanh => { canonical := "tanh", description := "Hyperbolic tangent." }
  | .atan2 => { canonical := "atan2", description := "Two-argument arctangent." }

/-- The canonical spelling, which is also the base of the math library's names. -/
def name (f : MathFunction) : String := f.entry.canonical

/-- The exact number of operands. -/
def arity : MathFunction → Nat
  | .atan2 => 2
  | _ => 1

def ofName? (spelling : String) : Option MathFunction := Entry.lookup? exactly all entry spelling

def keyLead : String := "math."

/-- The registry key, which is also the spelling in the host language. -/
def key (f : MathFunction) : String := keyLead ++ f.name

def ofKey? (key : String) : Option MathFunction := do ofName? (← afterLead? keyLead key)

end MathFunction

inductive HelperFunction where
  | exp
  | sqrt
deriving DecidableEq, Hashable, Repr

namespace HelperFunction

def all : List HelperFunction := [.exp, .sqrt]

theorem mem_all (f : HelperFunction) : f ∈ all := by cases f <;> decide

def entry : HelperFunction → Entry
  | .exp => { canonical := "exp", description := "Exponentiation; accepts complex operands." }
  | .sqrt => { canonical := "sqrt", description := "Square root; accepts complex operands." }

def name (f : HelperFunction) : String := f.entry.canonical

def ofName? (spelling : String) : Option HelperFunction := Entry.lookup? exactly all entry spelling

def keyLead : String := "mlir.helper_funcs."

/-- The registry key. -/
def key (f : HelperFunction) : String := keyLead ++ f.name

def ofKey? (key : String) : Option HelperFunction := do ofName? (← afterLead? keyLead key)

def spellingLead : String := "helper_funcs."

/-- The spelling in the host language. -/
def spelling (f : HelperFunction) : String := spellingLead ++ f.name

def ofSpelling? (spelling : String) : Option HelperFunction := do
  ofName? (← afterLead? spellingLead spelling)

end HelperFunction

/-- The identity of a function of the host language. -/
inductive HostCallable where
  | builtin (b : Builtin)
  | math (f : MathFunction)
  | helper (f : HelperFunction)
deriving DecidableEq, Hashable, Repr

namespace HostCallable

/-- Every host callable, in the order in which aliases are listed. -/
def all : List HostCallable :=
  Builtin.all.map .builtin ++ MathFunction.all.map .math ++ HelperFunction.all.map .helper

theorem mem_all (h : HostCallable) : h ∈ all := by
  simp only [all, List.mem_append, List.mem_map]
  cases h with
  | builtin b => exact .inl (.inl ⟨b, b.mem_all, rfl⟩)
  | math f => exact .inl (.inr ⟨f, f.mem_all, rfl⟩)
  | helper f => exact .inr ⟨f, f.mem_all, rfl⟩

/-- The spelling in the host language, such as `len`, `math.sqrt` or `helper_funcs.exp`. -/
def spelling : HostCallable → String
  | .builtin b => b.name
  | .math f => f.key
  | .helper f => f.spelling

def ofSpelling? (spelling : String) : Option HostCallable :=
  (Builtin.ofName? spelling).map .builtin <|>
    (MathFunction.ofKey? spelling).map .math <|>
    (HelperFunction.ofSpelling? spelling).map .helper

end HostCallable

end ScalarLowering
