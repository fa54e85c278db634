import ScalarLowering.Proofs.Lowering.Reachable
import ScalarLowering.Proofs.OperandSpec.Grammar
import ScalarLowering.Proofs.Value.Cast

set_option autoImplicit false

/- Integers as the bound values of parameters. A literal is a signed 64-bit integer
or a double, so an integer beyond the signed ones goes through a double. -/

namespace ScalarLowering

variable {x : Int} {n : Nat}

/-- An integer of 64 signed bits is read as itself. -/
theorem literalText_int (lower : -2 ^ 63 ≤ x) (upper : x < 2 ^ 63) :
    LiteralText (intChars x) (.int (Int64.ofInt x)) := by
  have kept : (Int64.ofInt x).toInt = x := Int64.toInt_ofInt_of_le lower upper
  refine .int ?_
  rw [kept]
  exact integerText_intChars x

/-- A greater one is read as the nearest double. -/
theorem literalText_float (large : 2 ^ 63 ≤ n) :
    LiteralText (intChars n) (.float (.ofDecimal .double false ⟨n, 0⟩)) := by
  have other (i : Int64) : ¬ IntegerText (intChars n) i.toInt := by
    intro text
    have same : i.toInt = n := text.unique (integerText_intChars n)
    have small := i.toInt_lt
    omega
  exact .float other (Decimal.numberText_toDigits n)
    (Binary.ofDecimal_isNearest .double false ⟨n, 0⟩)

namespace Value

/-- A value whose integer has 64 signed bits is converted from the literal of that integer. -/
theorem cast_ofLiteral_int {v : Value} (stands : v.integer? = some x) (small : x < 2 ^ 63) :
    (ofLiteral (.int (Int64.ofInt x))).cast v.type = v := by
  have holds := holds_of_integer? stands
  have lower : -2 ^ 63 ≤ x := Int.le_trans v.type.le_least holds.lower
  have kept : (Int64.ofInt x).toInt = x := Int64.toInt_ofInt_of_le lower small
  have literal : (ofLiteral (.int (Int64.ofInt x))).integer? = some x := congrArg some kept
  exact eq_of_integer? (type_cast _ _) (integer?_cast literal holds) stands

end Value

namespace Binary

/-- The bits of an integer in the upper half of the widest unsigned type are eleven too many. -/
theorem log2_upper (lower : 2 ^ 63 ≤ n) (upper : n < 2 ^ 64) : n.log2 = 63 :=
  (Nat.log2_eq_iff (by omega)).mpr ⟨lower, upper⟩

/-- So it is rounded to a multiple of `2 ^ 11` and held at the greatest integer. -/
theorem truncateWithin_upper (lower : 2 ^ 63 ≤ n) (upper : n < 2 ^ 64) :
    (ofDecimal .double false ⟨n, 0⟩).truncateWithin 0 (2 ^ 64 - 1) =
      (min (2 ^ 64 - 1) (2048 * roundHalfEven n 2048) : Nat) := by
  have bits := log2_upper lower upper
  have long : Precision.double.fractionBits ≤ n.log2 := by
    rw [bits]
    decide
  have room : n.log2 - Precision.double.fractionBits + Precision.double.unitExponent + 2 <
      Nat.pow 2 Precision.double.exponentBits - 1 := by
    rw [bits]
    decide
  have spacing : 2 ^ (n.log2 - Precision.double.fractionBits) = 2048 := by
    rw [bits]
    rfl
  have finite := rounded_whole_finite false long room
  have truncated := truncate_rounded_whole long finite
  rw [spacing] at truncated
  rw [ofDecimal_whole .double false (by omega), truncateWithin_of_finite finite, truncated]
  omega

end Binary

namespace OperandSpec

/-- A type with a value behind the equals sign. -/
theorem parse_binding {t : NumType} {text : String} {l : Literal}
    (binding : BindingText t text.toList l) :
    parse (t.name ++ "=" ++ text) = .ok (.param t (some l)) := by
  have name : t.Spelled t.name.toList := ⟨_, List.mem_cons_self, rfl⟩
  have whole : (t.name ++ "=" ++ text).toList = t.name.toList ++ ['='] ++ text.toList := by
    rw [String.toList_append, String.toList_append]
    rfl
  rw [parse, whole]
  exact parseWithin_of_leaf (.refl _) (.bound name (.refl ['=']) binding) maxTupleDepth

/-- The integer to which a parameter is bound where the text says `x`. -/
def boundInteger (x : Int) : Int :=
  if x < 2 ^ 63 then x else (min (2 ^ 64 - 1) (2048 * roundHalfEven x.toNat 2048) : Nat)

theorem boundInteger_eq_iff {x : Int} (upper : x < 2 ^ 64) :
    boundInteger x = x ↔ x < 2 ^ 63 ∨ x % 2048 = 0 ∨ x = 2 ^ 64 - 1 := by
  by_cases small : x < 2 ^ 63
  · exact iff_of_true (if_pos small) (.inl small)
  · rw [boundInteger, if_neg small]
    rcases Binary.roundHalfEven_cases x.toNat 2048 with ⟨down, _⟩ | ⟨up, _⟩
    · rw [down]
      omega
    · rw [up]
      omega

/-- In the upper half of the widest unsigned type the literal is a double. -/
theorem exists_literal_upper {bits : BitVec IntWidth.w64.bits} (large : 2 ^ 63 ≤ bits.toNat) :
    ∃ l bound, LiteralText (intChars bits.toNat) l ∧
      (Value.ofLiteral l).cast (.int .unsigned .w64) = .int .unsigned .w64 bound ∧
      Signedness.unsigned.read bound = boundInteger bits.toNat := by
  have small : ¬ (bits.toNat : Int) < 2 ^ 63 := by omega
  obtain ⟨bound, cast⟩ := Value.eq_int_of_type (Value.type_cast
    (.ofLiteral (.float (.ofDecimal .double false ⟨bits.toNat, 0⟩))) (.int .unsigned .w64))
  have stands : ((Value.ofLiteral (.float (.ofDecimal .double false ⟨bits.toNat, 0⟩))).cast
      (.int .unsigned .w64)).integer? = _ := Value.integer?_cast_float _ .unsigned .w64
  rw [cast, Binary.convert_self] at stands
  have truncated := Binary.truncateWithin_upper large bits.isLt
  refine ⟨_, bound, literalText_float large, cast, ?_⟩
  rw [boundInteger, if_neg small, Int.toNat_natCast, ← truncated]
  exact Option.some.inj stands

theorem exists_literal {s : Signedness} {w : IntWidth} (bits : BitVec w.bits) :
    ∃ l bound, LiteralText (intChars (s.read bits)) l ∧
      (Value.ofLiteral l).cast (.int s w) = .int s w bound ∧
      s.read bound = boundInteger (s.read bits) := by
  have stands : (Value.int s w bits).integer? = some (s.read bits) := rfl
  have holds := Value.holds_of_integer? stands
  by_cases small : s.read bits < 2 ^ 63
  · have lower : -2 ^ 63 ≤ s.read bits := Int.le_trans (NumType.le_least _) holds.lower
    exact ⟨_, bits, literalText_int lower small, Value.cast_ofLiteral_int stands small,
      (if_pos small).symm⟩
  · have widest : NumType.int s w = .int .unsigned .w64 :=
      Value.type_of_large stands (Int.not_lt.mp small)
    cases widest
    have large : ¬ (bits.toNat : Int) < 2 ^ 63 := small
    exact exists_literal_upper (by omega)

/-- The text of an integer behind its type, read and turned into a bound parameter. -/
theorem exists_binding (s : Signedness) (w : IntWidth) (bits : BitVec w.bits) (k : Kernel) :
    ∃ l bound,
      parse ((NumType.int s w).name ++ "=" ++ (Value.int s w bits).text) =
          .ok (.param (.int s w) (some l)) ∧
        (materialize (.param (.int s w) (some l))).run k =
          .ok (⟨[.value ⟨k.size⟩], [(k.paramCount, .int s w bound)], true⟩,
            k.addParam (.scalar (.int s w))) ∧
        s.read bound = boundInteger (s.read bits) := by
  obtain ⟨l, bound, text, cast, read⟩ := exists_literal (s := s) bits
  have binding : BindingText (.int s w) (Value.int s w bits).text.toList l := by
    rw [Value.text, intText, String.toList_ofList]
    exact .literal text
  refine ⟨l, bound, parse_binding binding, ?_, read⟩
  rw [← cast]
  rfl

/-- A parameter whose type is followed by the text of an integer of that type is bound to that
integer, unless it lies in the upper half of the widest unsigned type. Such an integer is read as
a double: the parameter is bound to the nearest multiple of 2048, held at the greatest integer of
the type. -/
theorem integer_binding_exact_iff (s : Signedness) (w : IntWidth) (bits : BitVec w.bits)
    (k : Kernel) :
    ∃ l bound,
      parse ((NumType.int s w).name ++ "=" ++ (Value.int s w bits).text) =
          .ok (.param (.int s w) (some l)) ∧
        (materialize (.param (.int s w) (some l))).run k =
          .ok (⟨[.value ⟨k.size⟩], [(k.paramCount, .int s w bound)], true⟩,
            k.addParam (.scalar (.int s w))) ∧
        (bound = bits ↔
          s.read bits < 2 ^ 63 ∨ s.read bits % 2048 = 0 ∨ s.read bits = 2 ^ 64 - 1) ∧
        (s.read bits < 2 ^ 63 ∨ ∃ quotient, NearestMultiple (s.read bits).toNat 2048 quotient ∧
          s.read bound = (min (2 ^ 64 - 1) (2048 * quotient) : Nat)) := by
  obtain ⟨l, bound, parsed, run, read⟩ := exists_binding s w bits k
  have upper : s.read bits < 2 ^ 64 := Value.lt_of_integer? (v := .int s w bits) rfl
  refine ⟨l, bound, parsed, run, ?_, ?_⟩
  · rw [← s.read_inj, read, boundInteger_eq_iff upper]
  · by_cases small : s.read bits < 2 ^ 63
    · exact .inl small
    · refine .inr ⟨_, Binary.roundHalfEven_nearest _ (by decide), ?_⟩
      rw [read, boundInteger, if_neg small]

/-- The first integer that is bound to another one. -/
theorem integer_binding_inexact :
    ∃ l, parse ((NumType.int .unsigned .w64).name ++ "=" ++
        (Value.int .unsigned .w64 9223372036854775809#64).text) =
          .ok (.param (.int .unsigned .w64) (some l)) ∧
      (materialize (.param (.int .unsigned .w64) (some l))).run .empty =
        .ok (⟨[.value ⟨0⟩], [(0, .int .unsigned .w64 9223372036854775808#64)], true⟩,
          Kernel.empty.addParam (.scalar (.int .unsigned .w64))) := by
  obtain ⟨l, bound, parsed, run, read⟩ :=
    exists_binding .unsigned .w64 9223372036854775809#64 .empty
  have rounded : boundInteger (Signedness.unsigned.read 9223372036854775809#64) =
      Signedness.unsigned.read 9223372036854775808#64 := by
    decide
  obtain rfl := Signedness.unsigned.read_inj.mp (read.trans rounded)
  exact ⟨l, parsed, run⟩

end OperandSpec

end ScalarLowering
