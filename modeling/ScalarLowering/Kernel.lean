import ScalarLowering.Value.Comparison

set_option autoImplicit false

/- A kernel under construction: a list of typed instructions in single-assignment
form. Each is recorded with the value that it defines, and values are looked up by
their position. -/

namespace ScalarLowering

/-- The value that the instruction at a position defines. Positions without an instruction are
identifiers too; they name no value. -/
structure ValueId where
  index : Nat
deriving DecidableEq, Hashable, Repr

def ValueId.text (id : ValueId) : String := "%" ++ toString id.index

/-- The type of a recorded value: a scalar, or a handle to an array whose length may be known. -/
inductive ValueType where
  | scalar (type : NumType)
  | array (elem : NumType) (length : Option UInt64)
deriving DecidableEq, Repr

namespace ValueType

def scalar? : ValueType → Option NumType
  | .scalar t => some t
  | .array .. => none

def isArray : ValueType → Bool
  | .scalar _ => false
  | .array .. => true

def length? : ValueType → Option UInt64
  | .scalar _ => none
  | .array _ length => length

def text : ValueType → String
  | .scalar t => t.name
  | .array elem length =>
    "array<" ++ elem.name ++ " x " ++ (length.map (toString ·.toNat)).getD "?" ++ ">"

end ValueType

inductive Operation where
  | param (index : Nat)
  | const (value : Value)
  | cast (source : ValueId)
  | compare (predicate : Predicate) (lhs rhs : ValueId)
  | select (condition onTrue onFalse : ValueId)
  | neg (operand : ValueId)
  /-- A call to an external function. Its result has the type of `template`. An undecorated
  symbol is used verbatim. -/
  | call (symbol : String) (args : List ValueId) (template : ValueId) (decorated : Bool)
deriving DecidableEq, Repr

structure Instruction where
  type : ValueType
  operation : Operation
deriving DecidableEq, Repr

/-- An instruction with the value that it defines. -/
structure Definition where
  id : ValueId
  instruction : Instruction
deriving DecidableEq, Repr

structure Kernel where
  definitions : Array Definition := #[]
  /-- How many parameters there are; the next one takes this index. -/
  paramCount : Nat := 0
deriving DecidableEq, Repr

namespace Kernel

def empty : Kernel := {}

/-- The number of instructions, parameters included. -/
def size (k : Kernel) : Nat := k.definitions.size

def instruction? (k : Kernel) (id : ValueId) : Option Instruction :=
  k.definitions[id.index]?.map (·.instruction)

def typeOf? (k : Kernel) (id : ValueId) : Option ValueType := (k.instruction? id).map (·.type)

/-- The type of a defined scalar value. -/
def scalarType? (k : Kernel) (id : ValueId) : Option NumType := (k.typeOf? id).bind (·.scalar?)

/-- The length of an array value, where it is known. -/
def staticLength? (k : Kernel) (id : ValueId) : Option UInt64 := (k.typeOf? id).bind (·.length?)

/-- The symbols of the external calls, in order. -/
def externalSymbols (k : Kernel) : List String :=
  k.definitions.toList.filterMap fun d =>
    match d.instruction.operation with
    | .call symbol .. => some symbol
    | _ => none

end Kernel

end ScalarLowering
