import Mathlib.Data.Int.ModEq
import ScalarLowering.Proofs.Binary.Conversion
import ScalarLowering.Proofs.Value.Integer

set_option autoImplicit false

/- Conversion against exact arithmetic. Whatever the type of a value, the result is
described by the numbers that the value and the result stand for, and not by the
widened form through which the conversion goes. -/

namespace ScalarLowering

namespace Signedness

theorem low_nonpos (s : Signedness) (n : IntWidth) : s.low n ≤ 0 := by
  cases s <;> cases n <;> decide

theorem high_nonneg (s : Signedness) (n : IntWidth) : 0 ≤ s.high n := by
  cases s <;> cases n <;> decide

theorem low_le_high (s : Signedness) (n : IntWidth) : s.low n ≤ s.high n :=
  (s.low_nonpos n).trans (s.high_nonneg n)

/-- A residue differs from the integer by a multiple of the number of values of the type. -/
theorem residue_modEq (s : Signedness) (n : IntWidth) (i : Int) :
    s.residue n i ≡ i [ZMOD 2 ^ n.bits] := by
  cases s with
  | signed =>
    have same : i.bmod (2 ^ n.bits) % (2 ^ n.bits : Nat) = i % (2 ^ n.bits : Nat) := Int.bmod_emod
    rwa [Int.natCast_pow] at same
  | unsigned => exact Int.mod_modEq i _

theorem residue_congr (s : Signedness) {n : IntWidth} {i j : Int}
    (same : i ≡ j [ZMOD 2 ^ n.bits]) : s.residue n i = s.residue n j := by
  cases s with
  | signed =>
    have same : i % (2 ^ n.bits : Nat) = j % (2 ^ n.bits : Nat) := by rwa [Int.natCast_pow]
    rw [residue, ← Int.emod_bmod, same, Int.emod_bmod]
    rfl
  | unsigned => exact same

/-- Bits that a narrow type drops do not matter before. -/
theorem residue_residue (s s' : Signedness) {n n' : IntWidth} (narrower : n'.bits ≤ n.bits)
    (i : Int) : s'.residue n' (s.residue n i) = s'.residue n' i :=
  s'.residue_congr ((s.residue_modEq n i).of_dvd (pow_dvd_pow 2 narrower))

end Signedness

namespace Value

variable {v w : Value} {t : NumType} {p q : Precision} {s : Signedness} {n : IntWidth}
variable {x re im : Binary p} {i : Int}

/-- All components are zeros of either sign. -/
inductive IsZero : Value → Prop where
  | bool : IsZero (.bool false)
  | int (s : Signedness) (n : IntWidth) : IsZero (.int s n 0)
  | float (p : Precision) (negative : Bool) : IsZero (.float p (.zero negative))
  | complex (p : Precision) (negative negative' : Bool) :
      IsZero (.complex p (.zero negative) (.zero negative'))

/-- One value, or NaNs of one type. -/
inductive Alike : Value → Value → Prop where
  | refl (v : Value) : Alike v v
  | nan {p : Precision} {x y : Binary p} (first : x.isNaN = true) (second : y.isNaN = true) :
      Alike (.float p x) (.float p y)

/-- What `w` is, as the conversion of `v` to the type `t`. -/
structure Converts (v : Value) (t : NumType) (w : Value) : Prop where
  type : w.type = t
  own : v.type = t → w = v
  truth : t = .bool → (w = .bool false ↔ v.IsZero)
  /-- An integer in the range of the type, equal up to a multiple of the number of its values. -/
  wrapped : ∀ {i s n}, v.integer? = some i → t = .int s n →
    ∃ j, w.integer? = some j ∧ s.low n ≤ j ∧ j ≤ s.high n ∧ j ≡ i [ZMOD 2 ^ n.bits]
  cut : ∀ {p x s n}, v = .float p x → t = .int s n →
    ∃ j, w.integer? = some j ∧ x.CutsTo (s.low n) (s.high n) j
  real : ∀ {p re im}, v = .complex p re im → t ≠ .bool → t.isComplex = false →
    w.Alike ((Value.float p re).cast t)
  integer : ∀ {i p}, v.integer? = some i → t = .float p →
    ∃ y, w = .float p y ∧ y.IsNearest (i < 0) |(i : ℚ)|
  integerComplex : ∀ {i p}, v.integer? = some i → t = .complex p →
    ∃ y, w = .complex p y (.zero false) ∧ y.IsNearest (i < 0) |(i : ℚ)|
  rounded : ∀ {p q x}, v = .float p x → t = .float q → ∃ y, w = .float q y ∧ x.RoundsTo y
  roundedComplex : ∀ {p q x}, v = .float p x → t = .complex q →
    ∃ y, w = .complex q y (.zero false) ∧ x.RoundsTo y
  components : ∀ {p q re im}, v = .complex p re im → t = .complex q →
    ∃ re' im', w = .complex q re' im' ∧ re.RoundsTo re' ∧ im.RoundsTo im'

theorem isZero_int_iff {bits : BitVec n.bits} : (Value.int s n bits).IsZero ↔ s.read bits = 0 := by
  have zero : s.read (0 : BitVec n.bits) = 0 := by cases s <;> cases n <;> rfl
  rw [← zero, s.read_inj]
  constructor
  · rintro ⟨⟩
    rfl
  · rintro rfl
    exact .int s n

theorem isZero_float_iff : (Value.float p x).IsZero ↔ x.isZero = true := by
  constructor
  · rintro ⟨⟩
    rfl
  · intro zero
    rw [Binary.eq_zero zero]
    exact .float p x.negative

theorem isZero_complex_iff :
    (Value.complex p re im).IsZero ↔ re.isZero = true ∧ im.isZero = true := by
  constructor
  · rintro ⟨⟩
    exact ⟨rfl, rfl⟩
  · rintro ⟨real, imaginary⟩
    rw [Binary.eq_zero real, Binary.eq_zero imaginary]
    exact .complex p re.negative im.negative

/-- Only a zero is false; a NaN is true. -/
theorem cast_bool_eq_false_iff (v : Value) : v.cast .bool = .bool false ↔ v.IsZero := by
  cases v with
  | bool b =>
    have kept : (Value.bool b).cast .bool = .bool b := cast_of_type rfl
    rw [kept]
    cases b with
    | false => exact iff_of_true rfl .bool
    | true => exact iff_of_false nofun nofun
  | int s n bits =>
    have converted : (Value.int s n bits).cast .bool = .bool (s.read bits ≠ 0) := rfl
    rw [converted, isZero_int_iff, Value.bool.injEq, decide_eq_false_iff_not, not_not]
  | float p x =>
    have converted : (Value.float p x).cast .bool = .bool (!(x.convert .double).isZero) := rfl
    rw [converted, isZero_float_iff, x.isZero_convert_double, Value.bool.injEq, Bool.not_eq_false']
  | complex p re im =>
    have converted : (Value.complex p re im).cast .bool =
        .bool (!(re.convert .double).isZero || !(im.convert .double).isZero) := rfl
    rw [converted, isZero_complex_iff, re.isZero_convert_double, im.isZero_convert_double,
      Value.bool.injEq, Bool.or_eq_false_iff, Bool.not_eq_false', Bool.not_eq_false']

theorem cast_int_wrapped (stands : v.integer? = some i) (s : Signedness) (n : IntWidth) :
    ∃ j, (v.cast (.int s n)).integer? = some j ∧ s.low n ≤ j ∧ j ≤ s.high n ∧
      j ≡ i [ZMOD 2 ^ n.bits] := by
  have stands' := integer?_cast_int stands s n
  have holds := holds_of_integer? stands'
  rw [type_cast] at holds
  exact ⟨_, stands', holds.lower, holds.upper, s.residue_modEq n i⟩

/-- A floating number is converted to the integer that is left of it within the bounds of the
type. -/
theorem integer?_cast_float (x : Binary p) (s : Signedness) (n : IntWidth) :
    ((Value.float p x).cast (.int s n)).integer? =
      some ((x.convert .double).truncateWithin (s.low n) (s.high n)) := by
  have range := (x.convert .double).truncateWithin_range (s.low_nonpos n) (s.high_nonneg n)
  have converted : (Value.float p x).cast (.int s n) =
      .int s n (BitVec.ofInt n.bits ((x.convert .double).truncateWithin (s.low n) (s.high n))) :=
    rfl
  rw [converted, integer?, s.read_ofInt, s.residue_of_range range.1 range.2]

theorem cast_float_cut (x : Binary p) (s : Signedness) (n : IntWidth) :
    ∃ j, ((Value.float p x).cast (.int s n)).integer? = some j ∧
      x.CutsTo (s.low n) (s.high n) j :=
  ⟨_, integer?_cast_float x s n, .of_double ((x.convert .double).truncateWithin_cutsTo _ _)⟩

/-- The imaginary part is lost. -/
theorem cast_complex_real (other : t ≠ .bool) (real : t.isComplex = false) :
    ((Value.complex p re im).cast t).Alike ((Value.float p re).cast t) := by
  cases t with
  | bool => exact absurd rfl other
  | int s n => exact .refl _
  | complex q => cases real
  | float q =>
    have converted : (Value.complex p re im).cast (.float q) =
        .float q ((re.convert .double).convert q) := rfl
    rw [converted]
    -- A real number of the own type stays as it is, while a component goes through double
    -- precision, from where every number comes back but a NaN with other bits.
    by_cases same : p = q
    · subst same
      have kept : (Value.float p re).cast (.float p) = .float p re := cast_of_type rfl
      rw [kept]
      cases nan : re.isNaN with
      | false =>
        rw [Binary.convert_double_convert nan]
        exact .refl _
      | true =>
        have rounds : re.RoundsTo ((re.convert .double).convert p) :=
          .of_double (Binary.convert_roundsTo _ p)
        exact .nan (rounds.nan nan) nan
    · have other : (Value.float p re).type ≠ .float q := by
        rintro ⟨⟩
        exact same rfl
      rw [cast, if_neg other]
      exact .refl _

theorem cast_of_integer? (stands : v.integer? = some i) (other : t.isWhole = false) :
    v.cast t = (Number.int i).toValue t := by
  have different : v.type ≠ t := by
    rintro rfl
    rw [isWhole_of_integer? stands] at other
    cases other
  rw [cast, if_neg different, number_of_integer? stands]

theorem cast_float_rounded (x : Binary p) (q : Precision) :
    ∃ y, (Value.float p x).cast (.float q) = .float q y ∧ x.RoundsTo y := by
  by_cases same : p = q
  · subst same
    have rounds := x.convert_roundsTo p
    rw [Binary.convert_self] at rounds
    exact ⟨x, cast_of_type rfl, rounds⟩
  · have other : (Value.float p x).type ≠ .float q := by
      rintro ⟨⟩
      exact same rfl
    refine ⟨(x.convert .double).convert q, ?_, .of_double (Binary.convert_roundsTo _ q)⟩
    rw [cast, if_neg other]
    rfl

theorem cast_complex_rounded (re im : Binary p) (q : Precision) :
    ∃ re' im', (Value.complex p re im).cast (.complex q) = .complex q re' im' ∧
      re.RoundsTo re' ∧ im.RoundsTo im' := by
  by_cases same : p = q
  · subst same
    have rounds := re.convert_roundsTo p
    have rounds' := im.convert_roundsTo p
    rw [Binary.convert_self] at rounds rounds'
    exact ⟨re, im, cast_of_type rfl, rounds, rounds'⟩
  · have other : (Value.complex p re im).type ≠ .complex q := by
      rintro ⟨⟩
      exact same rfl
    refine ⟨(re.convert .double).convert q, (im.convert .double).convert q, ?_,
      .of_double (Binary.convert_roundsTo _ q), .of_double (Binary.convert_roundsTo _ q)⟩
    rw [cast, if_neg other]
    rfl

theorem cast_converts (v : Value) (t : NumType) : v.Converts t (v.cast t) where
  type := type_cast v t
  own := cast_of_type
  truth := by
    rintro rfl
    exact v.cast_bool_eq_false_iff
  wrapped := by
    rintro i s n stands rfl
    exact cast_int_wrapped stands s n
  cut := by
    rintro p x s n rfl rfl
    exact cast_float_cut x s n
  real := by
    rintro p re im rfl other real
    exact cast_complex_real other real
  integer := by
    rintro i p stands rfl
    exact ⟨_, cast_of_integer? stands rfl, Binary.ofInt_isNearest p i⟩
  integerComplex := by
    rintro i p stands rfl
    exact ⟨_, cast_of_integer? stands rfl, Binary.ofInt_isNearest p i⟩
  rounded := by
    rintro p q x rfl rfl
    exact cast_float_rounded x q
  roundedComplex := by
    rintro p q x rfl rfl
    exact ⟨_, rfl, .of_double (Binary.convert_roundsTo _ q)⟩
  components := by
    rintro p q re im rfl rfl
    exact cast_complex_rounded re im q

/-- Conversion agrees with exact arithmetic for every value and every type. In particular a greater
floating number never becomes a smaller integer. -/
theorem cast_agrees_with_exact_arithmetic :
    (∀ (v : Value) (t : NumType), v.Converts t (v.cast t)) ∧
      ∀ {p q : Precision} (x : Binary p) (y : Binary q) (s : Signedness) (n : IntWidth),
        x.isNaN = false → y.isNaN = false → x.extended ≤ y.extended →
        ∃ i j, ((Value.float p x).cast (.int s n)).integer? = some i ∧
          ((Value.float q y).cast (.int s n)).integer? = some j ∧ i ≤ j := by
  refine ⟨cast_converts, ?_⟩
  intro p q x y s n number number' le
  obtain ⟨i, stands, cuts⟩ := cast_float_cut x s n
  obtain ⟨j, stands', cuts'⟩ := cast_float_cut y s n
  exact ⟨i, j, stands, stands', cuts.mono (s.low_le_high n) number number' le cuts'⟩

end Value

end ScalarLowering
