set_option autoImplicit false

/- The scalar types a kernel value can have: booleans, fixed-width integers, and
floating and complex numbers at two precisions. Spellings are in `Vocabulary`,
the values themselves in `Value`. -/

namespace ScalarLowering

inductive Signedness where
  | signed
  | unsigned
deriving DecidableEq, Repr

inductive IntWidth where
  | w8
  | w16
  | w32
  | w64
deriving DecidableEq, Repr

namespace IntWidth

@[simp] def bits : IntWidth → Nat
  | .w8 => 8
  | .w16 => 16
  | .w32 => 32
  | .w64 => 64

def ofBits? : Nat → Option IntWidth
  | 8 => some .w8
  | 16 => some .w16
  | 32 => some .w32
  | 64 => some .w64
  | _ => none

instance : Max IntWidth := ⟨fun a b => if a.bits ≤ b.bits then b else a⟩

/-- Twice the width, as far as the widest width reaches. -/
def doubled : IntWidth → IntWidth
  | .w8 => .w16
  | .w16 => .w32
  | .w32 => .w64
  | .w64 => .w64

end IntWidth

/-- The two binary floating-point formats. -/
inductive Precision where
  | single
  | double
deriving DecidableEq, Repr

namespace Precision

instance : Max Precision where
  max
    | .single, .single => .single
    | _, _ => .double

/-- Bits of the fraction field: the significand without its leading bit. -/
@[simp] def fractionBits : Precision → Nat
  | .single => 23
  | .double => 52

@[simp] def exponentBits : Precision → Nat
  | .single => 8
  | .double => 11

/-- The storage width: fraction, exponent and sign. -/
@[simp] def bits : Precision → Nat
  | .single => 32
  | .double => 64

end Precision

inductive NumType where
  | bool
  | int (sign : Signedness) (width : IntWidth)
  | float (precision : Precision)
  /-- Two floating components of the given precision. -/
  | complex (precision : Precision)
deriving DecidableEq, Repr

namespace NumType

abbrev int64 : NumType := .int .signed .w64
abbrev float32 : NumType := .float .single
abbrev float64 : NumType := .float .double

/-- Every scalar type: bool, signed, unsigned, floating, complex. -/
def all : List NumType :=
  [.bool,
   .int .signed .w8, .int .signed .w16, .int .signed .w32, .int .signed .w64,
   .int .unsigned .w8, .int .unsigned .w16, .int .unsigned .w32, .int .unsigned .w64,
   .float .single, .float .double,
   .complex .single, .complex .double]

theorem mem_all (t : NumType) : t ∈ all := by
  cases t with
  | bool => decide
  | int s w => cases s <;> cases w <;> decide
  | float p => cases p <;> decide
  | complex p => cases p <;> decide

def isBool : NumType → Bool
  | .bool => true
  | _ => false

/-- Booleans are no integers here. -/
def isInt : NumType → Bool
  | .int .. => true
  | _ => false

def isSignedInt : NumType → Bool
  | .int .signed _ => true
  | _ => false

def isUnsignedInt : NumType → Bool
  | .int .unsigned _ => true
  | _ => false

def isFloat : NumType → Bool
  | .float _ => true
  | _ => false

def isComplex : NumType → Bool
  | .complex _ => true
  | _ => false

/-- The storage width; a complex number takes that of both its components. -/
def bitWidth : NumType → Nat
  | .bool => 1
  | .int _ w => w.bits
  | .float p => p.bits
  | .complex p => 2 * p.bits

/-- The type of the two components of a complex number. -/
def component? : NumType → Option NumType
  | .complex p => some (.float p)
  | _ => none

/-- The type of a real result computed from a value of this type, such as a magnitude. -/
def realType (t : NumType) : NumType := t.component?.getD t

/-- The integer type of a sign and a width in bits, if there is one. -/
def int? (s : Signedness) (bits : Nat) : Option NumType :=
  (IntWidth.ofBits? bits).map (.int s)

end NumType

end ScalarLowering
