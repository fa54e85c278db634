import ScalarLowering.Decimal.Reading
import ScalarLowering.OperandSpec
import ScalarLowering.Text.Blank

set_option autoImplicit false

/- Reading operands. A text is trimmed, then its first characters decide: a
parenthesis opens a tuple, `array[` an array; what is left is a literal if it
reads as a number, and otherwise a type name with an optional bound value. -/

namespace ScalarLowering

/-- The text before a final character, if it ends in that character. -/
def beforeLast? (c : Char) (cs : List Char) : Option (List Char) :=
  if cs.getLast? = some c then some cs.dropLast else none

/-- An integer literal holds 64 signed bits. -/
def readInt64? (cs : List Char) : Option Int64 := do
  let i ← readInt? cs
  if Int64.minValue.toInt ≤ i ∧ i ≤ Int64.maxValue.toInt then some (Int64.ofInt i) else none

/-- A number without sign, or with a plus, that holds 64 bits. -/
def readUInt64? (cs : List Char) : Option UInt64 := do
  let n ← readNat? (match cs with | '+' :: rest => rest | _ => cs)
  if n < UInt64.size then some (UInt64.ofNat n) else none

/-- A literal is an integer if it reads as one that fits; every other number is rounded to the
nearest double. -/
def Literal.read? (cs : List Char) : Option Literal :=
  match readInt64? cs with
  | some i => some (.int i)
  | none => (Decimal.read? cs).map fun (negative, d) => .float (.ofDecimal .double negative d)

/-- The value that a parameter is bound to. Unlike a literal it may be infinite, no number at
all or, for a `bool` parameter, a truth value. -/
def Literal.readBinding? (t : NumType) (cs : List Char) : Option Literal :=
  let text := String.ofList cs
  if t.isBool && (text == "true" || text == "True") then some (.int 1)
  else if t.isBool && (text == "false" || text == "False") then some (.int 0)
  else if text == "inf" then some (.float (.infinite false))
  else if text == "-inf" then some (.float (.infinite true))
  else if text == "nan" then some (.float (.nan false))
  else Literal.read? cs

/-- The nesting depth behind a character; a parenthesis that closes none has none. -/
def depthBehind? : Nat → Char → Option Nat
  | depth, '(' => some (depth + 1)
  | 0, ')' => none
  | depth + 1, ')' => some depth
  | depth, _ => some depth

/-- Whether every parenthesis of a text that starts at the given depth has its partner. -/
def isBalancedFrom : Nat → List Char → Bool
  | depth, [] => depth = 0
  | depth, c :: cs =>
    match depthBehind? depth c with
    | some depth => isBalancedFrom depth cs
    | none => false

/-- The pieces of a text between its commas outside parentheses. -/
def splitCommasFrom : Nat → List Char → List (List Char)
  | _, [] => [[]]
  | depth, c :: cs =>
    if depth = 0 ∧ c = ',' then [] :: splitCommasFrom 0 cs
    else
      match splitCommasFrom ((depthBehind? depth c).getD 0) cs with
      | piece :: pieces => (c :: piece) :: pieces
      | [] => [[c]]

/-- The items of a comma-separated list, which may end in a comma; none if its parentheses do not
balance. A blank text has no items. -/
def splitItems? (cs : List Char) : Option (List (List Char)) :=
  if cs.all isBlank then some []
  else if isBalancedFrom 0 cs then
    let pieces := splitCommasFrom 0 cs
    if (pieces.getLastD []).all isBlank then some pieces.dropLast else some pieces
  else none

namespace OperandSpec

def parseLength (cs : List Char) : Except OperandError (Option UInt64) :=
  let text := trimBlanks cs
  if text = ['?'] then .ok none
  else
    match readUInt64? text with
    | some n => .ok (some n)
    | none => .error (.invalidLength (String.ofList text))

/-- A parameter: a type name, alone or with a value behind an equals sign. -/
def parseParam (text : List Char) : Except OperandError OperandSpec :=
  match NumType.ofName? (String.ofList (trimBlanks (text.takeWhile (· ≠ '=')))) with
  | none => .error (.unknown (String.ofList text))
  | some t =>
    match text.dropWhile (· ≠ '=') with
    | [] => .ok (.param t none)
    | _ :: rest =>
      let value := trimBlanks rest
      match Literal.readBinding? t value with
      | some l => .ok (.param t (some l))
      | none => .error (.invalidBinding t (String.ofList value))

/-- An operand that is no tuple. -/
def parseLeaf (text : List Char) : Except OperandError OperandSpec :=
  match ("array[".toList.isPrefixOf? text).bind (beforeLast? ']') with
  | some length => (parseLength length).map .array
  | none =>
    match Literal.read? text with
    | some l => .ok (.literal l)
    | none => parseParam text

/-- An operand with at most `levels` levels of tuples. -/
def parseWithin (levels : Nat) (cs : List Char) : Except OperandError OperandSpec :=
  match trimBlanks cs with
  | [] => .error .empty
  | '(' :: body =>
    match levels with
    | 0 => .error .tooDeep
    | levels + 1 =>
      match (beforeLast? ')' body).bind splitItems? with
      | none => .error (.unbalanced (String.ofList ('(' :: body)))
      | some items => (items.mapM (parseWithin levels)).map .tuple
  | text => parseLeaf text

def parse (text : String) : Except OperandError OperandSpec :=
  parseWithin maxTupleDepth text.toList

end OperandSpec

end ScalarLowering
