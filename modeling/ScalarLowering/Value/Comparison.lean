import ScalarLowering.Value

set_option autoImplicit false

/- Comparison and negation of values. Numbers of different types are compared as
numbers, an integer beside a floating number after rounding to double precision.
Complex numbers can be equal or unequal but have no order. -/

namespace ScalarLowering

/-- A comparison; its result is a `bool`. -/
inductive Predicate where
  | lt
  | le
  | gt
  | ge
  | eq
  | ne
deriving DecidableEq, Repr

namespace Predicate

def all : List Predicate := [.lt, .le, .gt, .ge, .eq, .ne]

def name : Predicate → String
  | .lt => "lt"
  | .le => "le"
  | .gt => "gt"
  | .ge => "ge"
  | .eq => "eq"
  | .ne => "ne"

def ofName? (name : String) : Option Predicate := all.find? (·.name == name)

/-- Whether the predicate holds of two numbers in the given order. Unordered numbers, of which
one is a NaN, are only unequal. -/
def holds (p : Predicate) : Option Ordering → Bool
  | none => p == .ne
  | some o =>
    match p with
    | .lt => o.isLT
    | .le => o.isLE
    | .gt => o.isGT
    | .ge => o.isGE
    | .eq => o.isEq
    | .ne => o.isNe

end Predicate

namespace Value

/-- The truth of a comparison; none if the values have no order that decides it. -/
def compare? (predicate : Predicate) (a b : Value) : Option Bool :=
  match a.number, b.number with
  | .int i, .int j => some (predicate.holds (some (compare i j)))
  | .real x, .real y => some (predicate.holds (x.order? y))
  | .int i, .real y => some (predicate.holds ((Binary.ofInt .double i).order? y))
  | .real x, .int j => some (predicate.holds (x.order? (Binary.ofInt .double j)))
  | .complex re im, .complex re' im' =>
    match predicate with
    | .eq => some (Predicate.eq.holds (re.order? re') && Predicate.eq.holds (im.order? im'))
    | .ne => some (Predicate.ne.holds (re.order? re') || Predicate.ne.holds (im.order? im'))
    | _ => none
  | _, _ => none

/-- The value with the opposite sign; integers wrap and a `bool` has none. -/
def neg? : Value → Option Value
  | .bool _ => none
  | .int s w bits => some (.int s w (-bits))
  | .float p x => some (.float p x.neg)
  | .complex p re im => some (.complex p re.neg im.neg)

end Value

end ScalarLowering
