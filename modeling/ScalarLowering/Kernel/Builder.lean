import ScalarLowering.Kernel

set_option autoImplicit false

/- The operations that record instructions. Two of them require something of
their operands that callers have to see to; where that fails nothing is
recorded and the violation is reported. -/

namespace ScalarLowering

/-- A requirement that the caller of a builder operation did not meet. -/
inductive Violation where
  /-- The source of a cast has no scalar type. -/
  | castSource (source : ValueId)
  /-- The two sides of a comparison have different scalar types. -/
  | comparedTypes
deriving DecidableEq, Repr

def Violation.message : Violation → String
  | .castSource source => "INVARIANT: cast source " ++ source.text ++ " must be scalar"
  | .comparedTypes => "INVARIANT: compared values share a type"

/-- A step of building a kernel. -/
abbrev Build := StateT Kernel (Except Violation)

namespace Build

/-- Records an instruction and returns the value it defines. -/
def record (i : Instruction) : Build ValueId :=
  modifyGet fun k => (⟨k.size⟩, { k with definitions := k.definitions.push ⟨⟨k.size⟩, i⟩ })

def newParam (type : ValueType) : Build ValueId := do
  let index := (← get).paramCount
  modify fun k => { k with paramCount := index + 1 }
  record ⟨type, .param index⟩

def param (t : NumType) : Build ValueId := newParam (.scalar t)

def arrayParam (elem : NumType) (length : Option UInt64) : Build ValueId :=
  newParam (.array elem length)

/-- The literal as a constant of type `t`, converted now. -/
def constant (l : Literal) (t : NumType) : Build ValueId :=
  record ⟨.scalar t, .const ((Value.ofLiteral l).cast t)⟩

/-- The value `source` as a value of type `t`, which is `source` itself if it has that type. -/
def cast (source : ValueId) (t : NumType) : Build ValueId := do
  match (← get).scalarType? source with
  | none => throw (.castSource source)
  | some s => if s = t then return source else record ⟨.scalar t, .cast source⟩

def compare (predicate : Predicate) (lhs rhs : ValueId) : Build ValueId := do
  let k ← get
  if k.scalarType? lhs = k.scalarType? rhs then
    record ⟨.scalar .bool, .compare predicate lhs rhs⟩
  else throw .comparedTypes

/-- The type of a value, or a given scalar type if the value is not defined. -/
def typeOr (id : ValueId) (t : NumType) : Build ValueType := do
  return ((← get).typeOf? id).getD (.scalar t)

def select (condition onTrue onFalse : ValueId) : Build ValueId := do
  record ⟨← typeOr onTrue .bool, .select condition onTrue onFalse⟩

def neg (operand : ValueId) : Build ValueId := do
  record ⟨← typeOr operand .int64, .neg operand⟩

def call (symbol : String) (args : List ValueId) (template : ValueId) (decorated : Bool) :
    Build ValueId := do
  record ⟨← typeOr template .float64, .call symbol args template decorated⟩

end Build

end ScalarLowering
