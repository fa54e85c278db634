import ScalarLowering.Proofs.Binary.Nearest
import ScalarLowering.Proofs.Decimal.Reading

set_option autoImplicit false

/- What is written for a decimal number is the text of a number of the same value,
in either notation. It has a point or an exponent, so that no integer reader
takes it. -/

namespace ScalarLowering

variable {cs digits : List Char}

theorem isDigit_of_mem_replicate {n : Nat} : ∀ c ∈ List.replicate n '0', c.isDigit = true := by
  intro c member
  rw [List.eq_of_mem_replicate member]
  rfl

theorem Digits.zeros_append (run : Digits digits) (n : Nat) :
    Digits (List.replicate n '0' ++ digits) where
  nonempty := List.append_ne_nil_of_right_ne_nil _ run.nonempty
  digit := List.forall_mem_append.mpr ⟨isDigit_of_mem_replicate, run.digit⟩

theorem Digits.append_zeros (run : Digits digits) (n : Nat) :
    Digits (digits ++ List.replicate n '0') where
  nonempty := List.append_ne_nil_of_left_ne_nil run.nonempty _
  digit := List.forall_mem_append.mpr ⟨run.digit, isDigit_of_mem_replicate⟩

theorem ofDigitChars_zeros_append (n : Nat) (digits : List Char) :
    Nat.ofDigitChars 10 (List.replicate n '0' ++ digits) 0 = Nat.ofDigitChars 10 digits 0 := by
  rw [Nat.ofDigitChars_append, Nat.ofDigitChars_replicate_zero, Nat.mul_zero]

theorem ofDigitChars_append_zeros (n : Nat) (digits : List Char) :
    Nat.ofDigitChars 10 (digits ++ List.replicate n '0') 0 =
      10 ^ n * Nat.ofDigitChars 10 digits 0 := by
  rw [Nat.ofDigitChars_append, Nat.ofDigitChars_replicate_zero]

/-- An integer is written without a point and without an exponent. -/
theorem IntegerText.not_mem {i : Int} (text : IntegerText cs i) : '.' ∉ cs ∧ 'e' ∉ cs := by
  have plain {negative : Bool} {digits : List Char} (sign : Signed negative digits cs)
      (run : Digits digits) : '.' ∉ cs ∧ 'e' ∉ cs := by
    have point : '.' ∉ digits := fun member => nomatch run.digit '.' member
    have mark : 'e' ∉ digits := fun member => nomatch run.digit 'e' member
    cases sign <;> simp [point, mark]
  cases text with
  | nonneg sign run => exact plain sign run
  | neg sign run => exact plain sign run

namespace Decimal

variable {point : Int}

theorem value_normalized (d : Decimal) : d.normalized.value = d.value := by
  induction d using normalized.induct with
  | case1 d zero ih =>
    obtain ⟨tenth, split⟩ : ∃ tenth, d.coefficient = tenth * 10 :=
      ⟨d.coefficient / 10, (Nat.div_mul_cancel (Nat.dvd_of_mod_eq_zero zero.2)).symm⟩
    rw [normalized, if_pos zero, ih, value, value, split, Nat.mul_div_cancel _ (by decide),
      zpow_add_one₀ (by norm_num), Nat.cast_mul]
    ring
  | case2 d done => rw [normalized, if_neg done]

/-- The number that digits stand for where so many of them stand before the point. -/
def pointed (digits : List Char) (point : Int) : Decimal :=
  ⟨Nat.ofDigitChars 10 digits 0, point - digits.length⟩

theorem pointed_digits (d : Decimal) : pointed d.digits d.pointPosition = d := by
  have exponent : d.pointPosition - d.digits.length = d.exponent := by
    rw [pointPosition]
    omega
  rw [pointed, exponent, digits, Nat.ofDigitChars_ten_toDigits]

theorem UnsignedText.of_parts {mantissa whole fraction tail : List Char} {exponent : Int}
    {d : Decimal} (point : MantissaText mantissa whole fraction) (run : Digits (whole ++ fraction))
    (exponential : ExponentText tail exponent)
    (coefficient : Nat.ofDigitChars 10 (whole ++ fraction) 0 = d.coefficient)
    (exponents : exponent - fraction.length = d.exponent) : UnsignedText (mantissa ++ tail) d := by
  have text := UnsignedText.intro point run exponential
  rwa [coefficient, exponents] at text

/-- Zeros stand between the point and the digits. -/
theorem unsignedText_before (run : Digits digits) (small : point ≤ 0) :
    UnsignedText (positional digits point) (pointed digits point) := by
  have all : ['0'] ++ (List.replicate (-point).toNat '0' ++ digits) =
      List.replicate ((-point).toNat + 1) '0' ++ digits := by
    rw [List.replicate_succ]
    rfl
  have text : UnsignedText (['0'] ++ '.' :: (List.replicate (-point).toNat '0' ++ digits) ++ [])
      (pointed digits point) := by
    refine .of_parts .point ?_ .none ?_ ?_
    · rw [all]
      exact run.zeros_append _
    · rw [all]
      exact ofDigitChars_zeros_append _ digits
    · simp only [pointed, List.length_append, List.length_replicate]
      omega
  rw [List.append_nil] at text
  rw [positional, if_pos small]
  exact text

/-- The point stands between the digits. -/
theorem unsignedText_inside (run : Digits digits) (positive : 0 < point)
    (inside : point < digits.length) :
    UnsignedText (positional digits point) (pointed digits point) := by
  have all := List.take_append_drop point.toNat digits
  have text : UnsignedText (digits.take point.toNat ++ '.' :: digits.drop point.toNat ++ [])
      (pointed digits point) := by
    refine .of_parts .point ?_ .none ?_ ?_
    · rwa [all]
    · rw [all]
      rfl
    · simp only [pointed, List.length_drop]
      omega
  rw [List.append_nil] at text
  rwa [positional, if_neg (Int.not_le.mpr positive), if_pos inside]

/-- Zeros stand between the digits and the point. They and the digit behind the point change
how the number is written, and not its value. -/
theorem unsignedText_behind (run : Digits digits) (positive : 0 < point)
    (behind : digits.length ≤ point) :
    ∃ d, UnsignedText (positional digits point) d ∧ d.value = (pointed digits point).value := by
  obtain ⟨zeros, exponent⟩ := Int.eq_ofNat_of_zero_le (Int.sub_nonneg_of_le behind)
  have all : digits ++ List.replicate zeros '0' ++ ['0'] =
      digits ++ List.replicate (zeros + 1) '0' := by
    rw [List.append_assoc, ← List.replicate_succ']
  refine ⟨⟨10 ^ (zeros + 1) * Nat.ofDigitChars 10 digits 0, -1⟩, ?_, ?_⟩
  · have text : UnsignedText (digits ++ List.replicate zeros '0' ++ '.' :: ['0'] ++ [])
        ⟨10 ^ (zeros + 1) * Nat.ofDigitChars 10 digits 0, -1⟩ := by
      refine .of_parts .point ?_ .none ?_ rfl
      · rw [all]
        exact run.append_zeros _
      · rw [all]
        exact ofDigitChars_append_zeros _ digits
    rw [positional, if_neg (Int.not_le.mpr positive), if_neg (Int.not_lt.mpr behind), exponent]
    simpa using text
  · rw [pointed, exponent, value_of_nonpos (n := 1) rfl, value_of_nonneg (n := zeros) rfl]
    push_cast
    ring

theorem exists_unsignedText_positional (run : Digits digits) (point : Int) :
    ∃ d, UnsignedText (positional digits point) d ∧ d.value = (pointed digits point).value := by
  rcases Int.lt_or_le 0 point with positive | small
  · rcases Int.lt_or_le point digits.length with inside | behind
    · exact ⟨_, unsignedText_inside run positive inside, rfl⟩
    · exact unsignedText_behind run positive behind
  · exact ⟨_, unsignedText_before run small, rfl⟩

theorem unsignedText_scientific (run : Digits digits) (point : Int) :
    UnsignedText (scientific digits point) (pointed digits point) := by
  have exponential : ExponentText ('e' :: intChars (point - 1)) (point - 1) :=
    .lower (integerText_intChars _)
  have nonempty : 0 < digits.length := List.length_pos_iff.mpr run.nonempty
  unfold scientific
  split_ifs with single
  · rw [List.append_nil, List.take_of_length_le single]
    refine .of_parts .whole ?_ exponential ?_ ?_
    · rwa [List.append_nil]
    · rw [List.append_nil]
      rfl
    · simp only [pointed, List.length_nil]
      omega
  · have all := List.take_append_drop 1 digits
    refine .of_parts .point ?_ exponential ?_ ?_
    · rwa [all]
    · rw [all]
      rfl
    · simp only [pointed, List.length_drop]
      omega

/-- What is written for a decimal number reads as a number of the same value. -/
theorem exists_unsignedText_chars (d : Decimal) :
    ∃ e, UnsignedText d.chars e ∧ e.value = d.value := by
  have run : Digits d.digits := digits_toDigits d.coefficient
  have written := exists_unsignedText_positional run d.pointPosition
  have marked := unsignedText_scientific run d.pointPosition
  rw [pointed_digits] at written marked
  unfold chars
  split
  · exact written
  · exact ⟨d, marked, rfl⟩

theorem mem_chars (d : Decimal) : '.' ∈ d.chars ∨ 'e' ∈ d.chars := by
  unfold chars
  split
  · unfold positional
    split_ifs <;> simp
  · simp [scientific]

/-- What is written for a decimal number is not taken for an integer, whatever its sign. -/
theorem not_integerText_of_chars {negative : Bool} {d : Decimal}
    (sign : Signed negative d.chars cs) (i : Int) : ¬ IntegerText cs i := by
  intro text
  obtain ⟨point, mark⟩ := text.not_mem
  have member (c : Char) (inside : c ∈ d.chars) : c ∈ cs := by
    cases sign <;> simp [inside]
  rcases d.mem_chars with found | found
  · exact point (member _ found)
  · exact mark (member _ found)

end Decimal

end ScalarLowering
