import Mathlib.Data.List.TakeDrop
import Mathlib.Data.List.TakeWhile
import ScalarLowering.Decimal.Reading

set_option autoImplicit false

/- What the readers of integers and decimal numbers read, stated as a grammar
of texts. Each reader succeeds on exactly the texts of its grammar, with the
number that they stand for. -/

namespace ScalarLowering

/-- A nonempty run of decimal digits. -/
structure Digits (cs : List Char) : Prop where
  nonempty : cs ≠ []
  digit : ∀ c ∈ cs, c.isDigit = true

/-- `cs` is `rest` behind an optional sign, which is negative for a minus. -/
inductive Signed : Bool → List Char → List Char → Prop where
  | none {rest : List Char} : Signed false rest rest
  | plus {rest : List Char} : Signed false rest ('+' :: rest)
  | minus {rest : List Char} : Signed true rest ('-' :: rest)

/-- An optionally signed run of digits, and the integer that it stands for. -/
inductive IntegerText : List Char → Int → Prop where
  | nonneg {cs digits : List Char} (sign : Signed false digits cs) (run : Digits digits) :
    IntegerText cs (Nat.ofDigitChars 10 digits 0)
  | neg {cs digits : List Char} (sign : Signed true digits cs) (run : Digits digits) :
    IntegerText cs (-(Nat.ofDigitChars 10 digits 0))

namespace Decimal

/-- The digits on both sides of a point, or those of a text without a point. -/
inductive MantissaText : List Char → List Char → List Char → Prop where
  | whole {whole : List Char} : MantissaText whole whole []
  | point {whole fraction : List Char} :
    MantissaText (whole ++ '.' :: fraction) whole fraction

/-- An exponent; where there is none it is zero. -/
inductive ExponentText : List Char → Int → Prop where
  | none : ExponentText [] 0
  | lower {cs : List Char} {i : Int} (integer : IntegerText cs i) : ExponentText ('e' :: cs) i
  | upper {cs : List Char} {i : Int} (integer : IntegerText cs i) : ExponentText ('E' :: cs) i

/-- Digits with an optional point, then an optional exponent. -/
inductive UnsignedText : List Char → Decimal → Prop where
  | intro {mantissa whole fraction tail : List Char} {exponent : Int}
    (point : MantissaText mantissa whole fraction) (run : Digits (whole ++ fraction))
    (exponential : ExponentText tail exponent) :
    UnsignedText (mantissa ++ tail)
      ⟨Nat.ofDigitChars 10 (whole ++ fraction) 0, exponent - fraction.length⟩

/-- A decimal number behind an optional sign. -/
def NumberText (cs : List Char) (negative : Bool) (d : Decimal) : Prop :=
  ∃ rest, Signed negative rest cs ∧ UnsignedText rest d

end Decimal

variable {cs rest digits : List Char} {negative : Bool}

theorem signed_splitSign (cs : List Char) : Signed (splitSign cs).1 (splitSign cs).2 cs := by
  unfold splitSign
  split
  · exact .minus
  · exact .plus
  · exact .none

/-- No sign stands behind a sign. -/
theorem Signed.splitSign_eq (sign : Signed negative rest cs)
    (first : ∀ c ∈ rest.head?, c ≠ '-' ∧ c ≠ '+') : splitSign cs = (negative, rest) := by
  cases sign with
  | none =>
    unfold splitSign
    split
    · exact absurd rfl (first '-' rfl).1
    · exact absurd rfl (first '+' rfl).2
    · rfl
  | plus => rfl
  | minus => rfl

theorem Digits.first (run : Digits digits) : ∀ c ∈ digits.head?, c ≠ '-' ∧ c ≠ '+' := by
  intro c member
  have digit := run.digit c (List.mem_of_mem_head? member)
  constructor <;> rintro rfl <;> cases digit

theorem readNat?_eq_some_iff {n : Nat} :
    readNat? cs = some n ↔ Digits cs ∧ Nat.ofDigitChars 10 cs 0 = n := by
  rw [readNat?, Option.ite_none_right_eq_some, List.all_eq_true, Option.some_inj]
  exact and_congr_left' ⟨fun ⟨nonempty, digit⟩ => ⟨nonempty, digit⟩,
    fun run => ⟨run.nonempty, run.digit⟩⟩

theorem readInt?_eq_map (cs : List Char) :
    readInt? cs = (readNat? (splitSign cs).2).map fun (n : Nat) =>
      if (splitSign cs).1 then -(n : Int) else n := by
  rw [readInt?]
  dsimp only
  cases readNat? (splitSign cs).2 <;> rfl

/-- The integer reader reads exactly the integer texts. -/
theorem readInt?_eq_some_iff {i : Int} : readInt? cs = some i ↔ IntegerText cs i := by
  constructor
  · intro read
    have sign := signed_splitSign cs
    rw [readInt?_eq_map] at read
    obtain ⟨n, digits, value⟩ := Option.map_eq_some_iff.mp read
    obtain ⟨run, rfl⟩ := readNat?_eq_some_iff.mp digits
    cases negative : (splitSign cs).1 with
    | false =>
      rw [negative] at sign value
      exact value ▸ .nonneg sign run
    | true =>
      rw [negative] at sign value
      exact value ▸ .neg sign run
  · intro text
    cases text with
    | nonneg sign run =>
      rw [readInt?_eq_map, sign.splitSign_eq run.first, readNat?_eq_some_iff.mpr ⟨run, rfl⟩]
      rfl
    | neg sign run =>
      rw [readInt?_eq_map, sign.splitSign_eq run.first, readNat?_eq_some_iff.mpr ⟨run, rfl⟩]
      rfl

theorem IntegerText.unique {i j : Int} (first : IntegerText cs i) (second : IntegerText cs j) :
    i = j := by
  have read := readInt?_eq_some_iff.mpr first
  rw [readInt?_eq_some_iff.mpr second] at read
  cases read
  rfl

theorem digits_toDigits (n : Nat) : Digits (Nat.toDigits 10 n) where
  nonempty := Nat.toDigits_ne_nil
  digit := fun _ member => Nat.isDigit_of_mem_toDigits (by decide) (by decide) member

/-- What is written for an integer stands for that integer. -/
theorem integerText_intChars (i : Int) : IntegerText (intChars i) i := by
  have run := digits_toDigits i.natAbs
  have value : Nat.ofDigitChars 10 (Nat.toDigits 10 i.natAbs) 0 = i.natAbs :=
    Nat.ofDigitChars_ten_toDigits
  unfold intChars
  split_ifs with negative
  · have text := IntegerText.neg .minus run
    rwa [value, Int.ofNat_natAbs_of_nonpos (Int.le_of_lt negative), Int.neg_neg] at text
  · have text := IntegerText.nonneg .none run
    rwa [value, Int.natAbs_of_nonneg (Int.not_lt.mp negative)] at text

namespace Decimal

theorem readExponent?_eq_some_iff {i : Int} : readExponent? cs = some i ↔ ExponentText cs i := by
  constructor
  · intro read
    unfold readExponent? at read
    split at read
    · cases read
      exact .none
    · exact .lower (readInt?_eq_some_iff.mp read)
    · exact .upper (readInt?_eq_some_iff.mp read)
    · cases read
  · intro text
    cases text with
    | none => rfl
    | lower integer => exact readInt?_eq_some_iff.mpr integer
    | upper integer => exact readInt?_eq_some_iff.mpr integer

theorem ExponentText.first {exponent : Int} (text : ExponentText cs exponent) :
    ∀ c ∈ cs.head?, c = 'e' ∨ c = 'E' := by
  intro c member
  cases text with
  | none => cases member
  | lower => exact .inl (Option.some_inj.mp member).symm
  | upper => exact .inr (Option.some_inj.mp member).symm

theorem span_digits (digit : ∀ c ∈ digits, c.isDigit = true)
    (stop : ∀ c ∈ rest.head?, c.isDigit = false) :
    (digits ++ rest).span Char.isDigit = (digits, rest) := by
  rw [List.span_eq_takeWhile_dropWhile, List.takeWhile_append_of_pos digit,
    List.dropWhile_append_of_pos digit]
  cases rest with
  | nil => simp
  | cons c tail =>
    have other : c.isDigit = false := stop c rfl
    simp [other]

theorem mantissaText_of_splitFraction (whole rest : List Char) : ∃ mantissa,
    whole ++ rest = mantissa ++ (splitFraction rest).2 ∧
      MantissaText mantissa whole (splitFraction rest).1 := by
  unfold splitFraction
  split
  · refine ⟨_, ?_, .point⟩
    rw [List.span_eq_takeWhile_dropWhile, List.append_assoc, List.cons_append,
      List.takeWhile_append_dropWhile]
  · exact ⟨whole, rfl, .whole⟩

theorem digit_splitFraction (rest : List Char) :
    ∀ c ∈ (splitFraction rest).1, c.isDigit = true := by
  unfold splitFraction
  split
  · rw [List.span_eq_takeWhile_dropWhile]
    exact fun c member => List.mem_takeWhile_imp member
  · nofun

theorem MantissaText.split {mantissa whole fraction tail : List Char} {exponent : Int}
    (point : MantissaText mantissa whole fraction)
    (digit : ∀ c ∈ whole ++ fraction, c.isDigit = true) (exponential : ExponentText tail exponent) :
    ∃ rest, (mantissa ++ tail).span Char.isDigit = (whole, rest) ∧
      splitFraction rest = (fraction, tail) := by
  obtain ⟨left, right⟩ := List.forall_mem_append.mp digit
  have stop : ∀ c ∈ tail.head?, c.isDigit = false := by
    intro c member
    rcases exponential.first c member with rfl | rfl <;> rfl
  cases point with
  | whole =>
    refine ⟨tail, span_digits left stop, ?_⟩
    unfold splitFraction
    split
    · rcases exponential.first _ rfl with h | h <;> cases h
    · rfl
  | point =>
    refine ⟨'.' :: (fraction ++ tail), ?_, span_digits right stop⟩
    rw [List.append_assoc]
    exact span_digits left (by simp)

/-- The reader of unsigned numbers reads exactly their texts. -/
theorem readUnsigned?_eq_some_iff {d : Decimal} :
    readUnsigned? cs = some d ↔ UnsignedText cs d := by
  constructor
  · intro read
    rw [readUnsigned?, List.span_eq_takeWhile_dropWhile] at read
    dsimp only at read
    rw [Option.ite_none_left_eq_some] at read
    obtain ⟨nonempty, read⟩ := read
    obtain ⟨exponent, exponential, rfl⟩ := Option.map_eq_some_iff.mp read
    obtain ⟨mantissa, text, point⟩ := mantissaText_of_splitFraction
      (cs.takeWhile Char.isDigit) (cs.dropWhile Char.isDigit)
    rw [List.takeWhile_append_dropWhile] at text
    have whole : ∀ c ∈ cs.takeWhile Char.isDigit, c.isDigit = true :=
      fun c member => List.mem_takeWhile_imp member
    have fraction := digit_splitFraction (cs.dropWhile Char.isDigit)
    have digit := List.forall_mem_append.mpr ⟨whole, fraction⟩
    have unsigned := UnsignedText.intro point ⟨nonempty, digit⟩
      (readExponent?_eq_some_iff.mp exponential)
    rwa [← text] at unsigned
  · rintro ⟨point, run, exponential⟩
    obtain ⟨rest, span, fraction⟩ := point.split run.digit exponential
    rw [readUnsigned?, span]
    simp only [fraction, if_neg run.nonempty, readExponent?_eq_some_iff.mpr exponential]
    rfl

/-- A number without sign starts with a digit or the point. -/
theorem UnsignedText.first {d : Decimal} (text : UnsignedText cs d) :
    ∃ c rest, cs = c :: rest ∧ (c.isDigit = true ∨ c = '.') := by
  obtain @⟨mantissa, whole, fraction, _, _, point, run, _⟩ := text
  cases whole with
  | cons c rest =>
    have digit := run.digit c List.mem_cons_self
    cases point with
    | whole => exact ⟨c, _, rfl, .inl digit⟩
    | point => exact ⟨c, _, rfl, .inl digit⟩
  | nil =>
    cases point with
    | whole => exact absurd rfl run.nonempty
    | point => exact ⟨'.', _, rfl, .inr rfl⟩

theorem read?_eq_map (cs : List Char) :
    read? cs = (readUnsigned? (splitSign cs).2).map fun d => ((splitSign cs).1, d) := rfl

/-- The reader of decimal numbers reads exactly their texts. -/
theorem read?_eq_some_iff {d : Decimal} :
    read? cs = some (negative, d) ↔ NumberText cs negative d := by
  rw [read?_eq_map]
  constructor
  · intro read
    obtain ⟨e, unsigned, same⟩ := Option.map_eq_some_iff.mp read
    cases same
    exact ⟨_, signed_splitSign cs, readUnsigned?_eq_some_iff.mp unsigned⟩
  · rintro ⟨rest, sign, unsigned⟩
    have first : ∀ c ∈ rest.head?, c ≠ '-' ∧ c ≠ '+' := by
      obtain ⟨c, tail, rfl, digit | rfl⟩ := unsigned.first
      · rintro c ⟨⟩
        constructor <;> rintro rfl <;> cases digit
      · rintro c ⟨⟩
        decide
    rw [sign.splitSign_eq first, readUnsigned?_eq_some_iff.mpr unsigned]
    rfl

/-- Digits alone are a decimal number without an exponent. -/
theorem numberText_toDigits (n : Nat) : NumberText (Nat.toDigits 10 n) false ⟨n, 0⟩ := by
  have run : Digits (Nat.toDigits 10 n ++ []) := by
    rw [List.append_nil]
    exact digits_toDigits n
  have text := UnsignedText.intro .whole run .none
  simp only [List.append_nil, Nat.ofDigitChars_ten_toDigits] at text
  exact ⟨_, .none, text⟩

end Decimal

/-- The characters of decimal numbers. -/
def Numeric (c : Char) : Prop := c.isDigit = true ∨ c ∈ ['.', 'e', 'E', '+', '-']

instance : DecidablePred Numeric := fun c =>
  inferInstanceAs (Decidable (c.isDigit = true ∨ c ∈ ['.', 'e', 'E', '+', '-']))

theorem Digits.numeric (run : Digits digits) : ∀ c ∈ digits, Numeric c :=
  fun c member => .inl (run.digit c member)

theorem Signed.numeric (sign : Signed negative rest cs) (numeric : ∀ c ∈ rest, Numeric c) :
    ∀ c ∈ cs, Numeric c := by
  cases sign with
  | none => exact numeric
  | plus => exact List.forall_mem_cons.mpr ⟨.inr (by decide), numeric⟩
  | minus => exact List.forall_mem_cons.mpr ⟨.inr (by decide), numeric⟩

theorem IntegerText.numeric {i : Int} (text : IntegerText cs i) : ∀ c ∈ cs, Numeric c := by
  cases text with
  | nonneg sign run => exact sign.numeric run.numeric
  | neg sign run => exact sign.numeric run.numeric

namespace Decimal

theorem ExponentText.numeric {i : Int} (text : ExponentText cs i) : ∀ c ∈ cs, Numeric c := by
  cases text with
  | none => nofun
  | lower integer => exact List.forall_mem_cons.mpr ⟨.inr (by decide), integer.numeric⟩
  | upper integer => exact List.forall_mem_cons.mpr ⟨.inr (by decide), integer.numeric⟩

theorem MantissaText.numeric {mantissa whole fraction : List Char}
    (point : MantissaText mantissa whole fraction) (run : Digits (whole ++ fraction)) :
    ∀ c ∈ mantissa, Numeric c := by
  obtain ⟨left, right⟩ := List.forall_mem_append.mp run.numeric
  cases point with
  | whole => exact left
  | point =>
    exact List.forall_mem_append.mpr ⟨left, List.forall_mem_cons.mpr ⟨.inr (by decide), right⟩⟩

theorem NumberText.numeric {d : Decimal} (text : NumberText cs negative d) :
    ∀ c ∈ cs, Numeric c := by
  obtain ⟨rest, sign, point, run, exponential⟩ := text
  exact sign.numeric (List.forall_mem_append.mpr ⟨point.numeric run, exponential.numeric⟩)

end Decimal

end ScalarLowering
