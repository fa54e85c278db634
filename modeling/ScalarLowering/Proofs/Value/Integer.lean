import Mathlib.Algebra.Ring.Int.Defs
import Mathlib.Algebra.Ring.Nat
import ScalarLowering.Proofs.Value.Typing

set_option autoImplicit false

/- The mathematical integers that booleans and integers stand for. An integer type
holds a range of them, and a conversion takes the residue in that range. -/

namespace ScalarLowering

namespace Signedness

variable {w : IntWidth} {x : Int}

theorem low_signed (w : IntWidth) : signed.low w = -2 ^ (w.bits - 1) := by cases w <;> rfl

theorem high_signed (w : IntWidth) : signed.high w = 2 ^ (w.bits - 1) - 1 := by cases w <;> rfl

theorem high_unsigned (w : IntWidth) : unsigned.high w = 2 ^ w.bits - 1 := by cases w <;> rfl

theorem low_le_read (s : Signedness) (bits : BitVec w.bits) : s.low w ≤ s.read bits := by
  cases s with
  | signed =>
    rw [low_signed]
    exact bits.le_toInt
  | unsigned => exact Int.natCast_nonneg bits.toNat

theorem read_le_high (s : Signedness) (bits : BitVec w.bits) : s.read bits ≤ s.high w := by
  cases s with
  | signed =>
    rw [high_signed]
    exact Int.le_sub_one_of_lt bits.toInt_lt
  | unsigned =>
    have below : (bits.toNat : Int) < 2 ^ w.bits := by exact_mod_cast bits.isLt
    rw [high_unsigned]
    exact Int.le_sub_one_of_lt below

theorem read_inj (s : Signedness) {n : Nat} {bits bits' : BitVec n} :
    s.read bits = s.read bits' ↔ bits = bits' := by
  cases s with
  | signed => exact BitVec.toInt_inj
  | unsigned => exact Int.natCast_inj.trans BitVec.toNat_inj

/-- The integer in the range of a type that differs by a multiple of the number of its values. -/
def residue (s : Signedness) (w : IntWidth) (x : Int) : Int :=
  match s with
  | .signed => x.bmod (2 ^ w.bits)
  | .unsigned => x % 2 ^ w.bits

theorem read_ofInt (s : Signedness) (w : IntWidth) (x : Int) :
    s.read (BitVec.ofInt w.bits x) = s.residue w x := by
  cases s with
  | signed => exact BitVec.toInt_ofInt x
  | unsigned =>
    have positive : ((2 ^ w.bits : Nat) : Int) ≠ 0 := by
      exact_mod_cast Nat.ne_of_gt (Nat.two_pow_pos w.bits)
    rw [read, BitVec.toNat_ofInt, Int.toNat_of_nonneg (Int.emod_nonneg x positive),
      Int.natCast_pow]
    rfl

theorem residue_of_range (s : Signedness) (lower : s.low w ≤ x) (upper : x ≤ s.high w) :
    s.residue w x = x := by
  cases s with
  | signed =>
    rw [low_signed] at lower
    rw [high_signed] at upper
    cases w <;> exact Int.bmod_eq_of_le (by simp at *; omega) (by simp at *; omega)
  | unsigned =>
    rw [high_unsigned] at upper
    exact Int.emod_eq_of_lt lower (by omega)

end Signedness

/-- Booleans and integers. -/
def NumType.isWhole (t : NumType) : Bool := t.isBool || t.isInt

/-- The least integer of a type. -/
def NumType.least : NumType → Int
  | .int s w => s.low w
  | _ => 0

/-- The greatest integer of a type. -/
def NumType.greatest : NumType → Int
  | .bool => 1
  | .int s w => s.high w
  | _ => 0

/-- The type has a value for the integer. -/
structure NumType.Holds (t : NumType) (x : Int) : Prop where
  whole : t.isWhole = true
  lower : t.least ≤ x
  upper : x ≤ t.greatest

namespace Value

/-- The integer that a boolean or an integer stands for. -/
def integer? : Value → Option Int
  | .bool b => some (if b then 1 else 0)
  | .int s _ bits => some (s.read bits)
  | .float .. | .complex .. => none

variable {v w : Value} {t : NumType} {x : Int}

theorem number_of_integer? (stands : v.integer? = some x) : v.number = .int x := by
  cases v with
  | bool b =>
    cases stands
    rfl
  | int s w bits =>
    cases stands
    rfl
  | float p y => cases stands
  | complex p re im => cases stands

theorem isWhole_of_integer? (stands : v.integer? = some x) : v.type.isWhole = true := by
  cases v with
  | bool b => rfl
  | int s w bits => rfl
  | float p y => cases stands
  | complex p re im => cases stands

theorem exists_integer? (whole : v.type.isWhole = true) : ∃ x, v.integer? = some x := by
  cases v with
  | bool b => exact ⟨_, rfl⟩
  | int s w bits => exact ⟨_, rfl⟩
  | float p y => cases whole
  | complex p re im => cases whole

theorem holds_of_integer? (stands : v.integer? = some x) : v.type.Holds x := by
  cases v with
  | bool b =>
    cases stands
    cases b <;> exact ⟨rfl, by decide, by decide⟩
  | int s w bits =>
    cases stands
    exact ⟨rfl, s.low_le_read bits, s.read_le_high bits⟩
  | float p y => cases stands
  | complex p re im => cases stands

/-- A value is told by its type and its integer. -/
theorem eq_of_integer? (same : v.type = w.type) (stands : v.integer? = some x)
    (stands' : w.integer? = some x) : v = w := by
  cases v with
  | bool b =>
    obtain ⟨c, rfl⟩ := eq_bool_of_type same.symm
    have equal := Option.some.inj (stands.trans stands'.symm)
    cases b <;> cases c <;> first | rfl | cases equal
  | int s w bits =>
    obtain ⟨bits', rfl⟩ := eq_int_of_type same.symm
    rw [s.read_inj.mp (Option.some.inj (stands.trans stands'.symm))]
  | float p y => cases stands
  | complex p re im => cases stands

/-- Conversion to an integer type takes the residue. -/
theorem integer?_cast_int (stands : v.integer? = some x) (s : Signedness) (w : IntWidth) :
    (v.cast (.int s w)).integer? = some (s.residue w x) := by
  by_cases same : v.type = .int s w
  · have range := holds_of_integer? stands
    rw [same] at range
    rw [cast_of_type same, stands, s.residue_of_range range.lower range.upper]
  · rw [cast, if_neg same, number_of_integer? stands, Number.toValue, integer?, s.read_ofInt]

/-- Conversion to a type that holds the integer keeps it. -/
theorem integer?_cast (stands : v.integer? = some x) (holds : t.Holds x) :
    (v.cast t).integer? = some x := by
  cases t with
  | bool =>
    by_cases same : v.type = .bool
    · rw [cast_of_type same, stands]
    · have lower : 0 ≤ x := holds.lower
      have upper : x ≤ 1 := holds.upper
      obtain rfl | rfl : x = 0 ∨ x = 1 := by omega
      all_goals rw [cast, if_neg same, number_of_integer? stands]; rfl
  | int s w => rw [integer?_cast_int stands, s.residue_of_range holds.lower holds.upper]
  | float p => cases holds.whole
  | complex p => cases holds.whole

end Value

namespace NumType

variable {t u : NumType} {x : Int}

theorem isComplex_of_isWhole (whole : t.isWhole = true) : t.isComplex = false := by
  cases t with
  | complex p => cases whole
  | _ => rfl

theorem isWhole_promote (whole : t.isWhole = true) (whole' : u.isWhole = true) :
    (t.promote u).isWhole = true := by
  have table : ∀ t ∈ all, ∀ u ∈ all, t.isWhole = true → u.isWhole = true →
      (t.promote u).isWhole = true := by decide
  exact table t (mem_all t) u (mem_all u) whole whole'

theorem isSignedInt_promote (whole : t.isWhole = true) (whole' : u.isWhole = true) :
    (t.promote u).isSignedInt = (t.isSignedInt || u.isSignedInt) := by
  have table : ∀ t ∈ all, ∀ u ∈ all, t.isWhole = true → u.isWhole = true →
      (t.promote u).isSignedInt = (t.isSignedInt || u.isSignedInt) := by decide
  exact table t (mem_all t) u (mem_all u) whole whole'

/-- A common type reaches as far as the types it is common to, except that no signed type reaches as
far as the widest unsigned one. -/
theorem range_promote (whole : t.isWhole = true) (whole' : u.isWhole = true) :
    (t.promote u).least ≤ t.least ∧ (t.greatest ≤ (t.promote u).greatest ∨
      t = .int .unsigned .w64 ∧ t.promote u = .int64) := by
  have table : ∀ t ∈ all, ∀ u ∈ all, t.isWhole = true → u.isWhole = true →
      (t.promote u).least ≤ t.least ∧ (t.greatest ≤ (t.promote u).greatest ∨
        t = .int .unsigned .w64 ∧ t.promote u = .int64) := by decide
  exact table t (mem_all t) u (mem_all u) whole whole'

theorem greatest_lt (narrow : t ≠ .int .unsigned .w64) : t.greatest < 2 ^ 63 := by
  have table : ∀ t ∈ all, t ≠ .int .unsigned .w64 → t.greatest < 2 ^ 63 := by decide
  exact table t (mem_all t) narrow

theorem greatest_lt_of_signed (signed : t.isSignedInt = true) : t.greatest < 2 ^ 63 := by
  apply greatest_lt
  rintro rfl
  cases signed

theorem greatest_lt_two_pow (t : NumType) : t.greatest < 2 ^ 64 := by
  have table : ∀ t ∈ all, t.greatest < 2 ^ 64 := by decide
  exact table t (mem_all t)

theorem le_least (t : NumType) : -2 ^ 63 ≤ t.least := by
  have table : ∀ t ∈ all, -2 ^ 63 ≤ t.least := by decide
  exact table t (mem_all t)

theorem least_of_unsigned (unsigned : t.isSignedInt = false) : t.least = 0 := by
  have table : ∀ t ∈ all, t.isSignedInt = false → t.least = 0 := by decide
  exact table t (mem_all t) unsigned

end NumType

/-- An integer at a common type. A signed type has no place for the upper half of the widest
unsigned type, which turns negative there. -/
def atCommonType (signed : Bool) (x : Int) : Int :=
  if signed = true ∧ 2 ^ 63 ≤ x then x - 2 ^ 64 else x

theorem atCommonType_false (x : Int) : atCommonType false x = x := if_neg nofun

theorem atCommonType_true (x : Int) :
    atCommonType true x = if 2 ^ 63 ≤ x then x - 2 ^ 64 else x := by
  rw [atCommonType]
  simp only [true_and]

theorem atCommonType_of_small {signed : Bool} {x : Int} (small : signed = true → x < 2 ^ 63) :
    atCommonType signed x = x :=
  if_neg fun high => Int.not_lt.mpr high.2 (small high.1)

theorem atCommonType_eq_iff {signed : Bool} {x : Int} :
    atCommonType signed x = x ↔ ¬ (signed = true ∧ 2 ^ 63 ≤ x) := by
  rw [atCommonType]
  split_ifs with high
  · exact iff_of_false (by omega) (not_not_intro high)
  · exact iff_of_true rfl high

theorem Signedness.residue_signed_of_unsigned {x : Int}
    (lower : (NumType.int .unsigned .w64).least ≤ x)
    (upper : x ≤ (NumType.int .unsigned .w64).greatest) :
    Signedness.signed.residue .w64 x = atCommonType true x := by
  have lower : 0 ≤ x := lower
  have upper : x ≤ 2 ^ 64 - 1 := upper
  rw [residue, atCommonType_true]
  by_cases large : 2 ^ 63 ≤ x
  · rw [if_pos large, ← Int.sub_bmod_right]
    exact Int.bmod_eq_of_le (by simp; omega) (by simp; omega)
  · rw [if_neg large]
    exact Int.bmod_eq_of_le (by simp; omega) (by simp; omega)

namespace Value

variable {v : Value} {u : NumType} {x : Int}

theorem integer?_cast_promote (stands : v.integer? = some x) (whole : u.isWhole = true) :
    (v.cast (v.type.promote u)).integer? =
      some (atCommonType (v.type.promote u).isSignedInt x) := by
  have holds := holds_of_integer? stands
  obtain ⟨lower, upper | ⟨widest, signed⟩⟩ := NumType.range_promote holds.whole whole
  · have range : (v.type.promote u).Holds x :=
      ⟨NumType.isWhole_promote holds.whole whole, Int.le_trans lower holds.lower,
        Int.le_trans holds.upper upper⟩
    have small : (v.type.promote u).isSignedInt = true → x < 2 ^ 63 := by
      intro signed
      exact Int.lt_of_le_of_lt range.upper (NumType.greatest_lt_of_signed signed)
    rw [integer?_cast stands range, atCommonType_of_small small]
  · have lower := holds.lower
    have upper := holds.upper
    rw [widest] at lower upper
    rw [signed, integer?_cast_int stands, Signedness.residue_signed_of_unsigned lower upper]
    rfl

theorem lt_of_integer? (stands : v.integer? = some x) : x < 2 ^ 64 :=
  Int.lt_of_le_of_lt (holds_of_integer? stands).upper v.type.greatest_lt_two_pow

theorem type_of_large (stands : v.integer? = some x) (large : 2 ^ 63 ≤ x) :
    v.type = .int .unsigned .w64 := by
  by_contra narrow
  have upper := (holds_of_integer? stands).upper
  exact Int.not_lt.mpr large (Int.lt_of_le_of_lt upper (NumType.greatest_lt narrow))

theorem nonneg_of_unsigned (stands : v.integer? = some x) (unsigned : v.type.isSignedInt = false) :
    0 ≤ x := by
  have lower := (holds_of_integer? stands).lower
  rwa [NumType.least_of_unsigned unsigned] at lower

/-- A signed integer is at every common type already. -/
theorem atCommonType_of_signed (stands : v.integer? = some x) (signed : v.type.isSignedInt = true)
    (s : Bool) : atCommonType s x = x :=
  atCommonType_of_small fun _ =>
    Int.lt_of_le_of_lt (holds_of_integer? stands).upper (NumType.greatest_lt_of_signed signed)

end Value

end ScalarLowering
