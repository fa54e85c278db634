import ScalarLowering.Kernel

set_option autoImplicit false

/- The text of a kernel: one line for each instruction, which names the value it
defines, the operation and the type. A call does not show its template. -/

namespace ScalarLowering

def Operation.text : Operation → String
  | .param index => "param " ++ toString index
  | .const value => "const " ++ value.text
  | .cast source => "cast " ++ source.text
  | .compare predicate lhs rhs => "cmp " ++ predicate.name ++ " " ++ lhs.text ++ ", " ++ rhs.text
  | .select condition onTrue onFalse =>
    "select " ++ condition.text ++ ", " ++ onTrue.text ++ ", " ++ onFalse.text
  | .neg operand => "neg " ++ operand.text
  | .call symbol args _ decorated =>
    "call " ++ (if decorated then "decorated " else "") ++ "@" ++ symbol ++
      "(" ++ String.intercalate ", " (args.map (·.text)) ++ ")"

def Instruction.line (id : ValueId) (i : Instruction) : String :=
  id.text ++ " = " ++ i.operation.text ++ " : " ++ i.type.text

def Definition.line (d : Definition) : String := d.instruction.line d.id

namespace Kernel

/-- The line of the instruction at a position. -/
def line? (k : Kernel) (id : ValueId) : Option String := k.definitions[id.index]?.map (·.line)

/-- The lines of the instructions from a position on. -/
def linesFrom (k : Kernel) (start : Nat) : List String :=
  (k.definitions.toList.drop start).map (·.line)

def lines (k : Kernel) : List String := k.linesFrom 0

def text (k : Kernel) : String := String.join (k.lines.map (· ++ "\n"))

end Kernel

end ScalarLowering
