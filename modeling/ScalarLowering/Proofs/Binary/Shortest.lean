import ScalarLowering.Proofs.Binary.Order
import ScalarLowering.Proofs.Decimal.Writing

set_option autoImplicit false

/- What is written for a finite number reads back as that number. Each decimal that
the search for the shortest one returns has been read before it is returned, and
the decimal that is left where the search fails is the number itself. -/

namespace ScalarLowering

namespace Binary

variable {p : Precision} {x : Binary p} {d : Decimal} {exponent : Int}

theorem NearestMagnitude.of_isReadFrom (reads : x.isReadFrom d = true) :
    NearestMagnitude p d.value x.magnitude := by
  have same : ofDecimal p false d = x.abs := of_decide_eq_true reads
  have nearest := (ofDecimal_isNearest p false d).magnitude
  rw [same] at nearest
  exact nearest

theorem isReadFrom_of_onGrid? (found : x.onGrid? exponent = some d) : x.isReadFrom d = true := by
  unfold onGrid? at found
  dsimp only at found
  split_ifs at found with below both above
  · cases found
    exact both.1
  · cases found
    exact below
  · cases found
    exact above

/-- Ten to a power is two and five to that power, so no digit of a finite number is lost. -/
theorem value_exactDecimal (x : Binary p) : x.exactDecimal.value = valueOf p x.magnitude := by
  have fives : ((5 : ℚ) ^ p.unitExponent) ≠ 0 := by positivity
  have tens : (10 : ℚ) ^ p.unitExponent = 2 ^ p.unitExponent * 5 ^ p.unitExponent := by
    rw [← mul_pow]
    norm_num
  rw [exactDecimal, Decimal.value_of_nonpos (n := p.unitExponent) (neg_neg _), tens, valueOf,
    unitsPerOne_eq, units, Nat.pow_eq, Nat.cast_mul, Nat.cast_pow, Nat.cast_pow]
  exact mul_div_mul_right _ _ fives

theorem shortest_nearest (finite : x.magnitude < p.infinity) :
    NearestMagnitude p x.shortest.value x.magnitude := by
  unfold shortest
  dsimp only
  rw [Decimal.value_normalized]
  cases found : (List.range 17).findSome? fun (n : Nat) => x.onGrid? (x.leadExponent - n) with
  | none =>
    rw [Option.getD_none, value_exactDecimal]
    exact .of_valueOf finite.le
  | some d =>
    obtain ⟨n, _, grid⟩ := List.exists_of_findSome?_eq_some found
    exact .of_isReadFrom (isReadFrom_of_onGrid? grid)

/-- The absolute value of a finite number is written as a decimal to which it is nearest. -/
theorem exists_absChars_eq (finite : x.magnitude < p.infinity) :
    ∃ d : Decimal, x.absChars = d.chars ∧ NearestMagnitude p d.value x.magnitude := by
  unfold absChars
  rw [isInfinite_of_finite finite, if_neg nofun]
  split_ifs with zero
  · have none : x.magnitude = 0 := of_decide_eq_true zero
    refine ⟨⟨0, 0⟩, by decide, ?_⟩
    rw [none, Decimal.value, Nat.cast_zero, zero_mul, ← valueOf_zero p]
    exact .of_valueOf (Nat.zero_le _)
  · exact ⟨x.shortest, rfl, shortest_nearest finite⟩

theorem signed_chars (number : x.isNaN = false) : Signed x.negative x.absChars x.chars := by
  unfold chars
  rw [number, if_neg nofun]
  cases x.negative with
  | false =>
    rw [if_neg nofun]
    exact .none
  | true =>
    rw [if_pos rfl]
    exact .minus

/-- A finite number is written as a decimal that reads back as it, and never as an integer. -/
theorem exists_numberText_chars (finite : x.magnitude < p.infinity) :
    (∃ d : Decimal, d.NumberText x.chars x.negative ∧ x.IsNearest x.negative d.value) ∧
      ∀ i, ¬ IntegerText x.chars i := by
  have sign := signed_chars (isNaN_of_finite finite)
  obtain ⟨d, written, nearest⟩ := exists_absChars_eq finite
  rw [written] at sign
  obtain ⟨e, unsigned, value⟩ := d.exists_unsignedText_chars
  refine ⟨⟨e, ⟨_, sign, unsigned⟩, rfl, ?_⟩, Decimal.not_integerText_of_chars sign⟩
  rwa [value]

/-- The number, with one NaN for all NaNs. -/
def oneNaN (x : Binary p) : Binary p := if x.isNaN then nan false else x

theorem chars_oneNaN (x : Binary p) : x.oneNaN.chars = x.chars := by
  unfold oneNaN
  split_ifs with nan
  · have other : (Binary.nan false : Binary p).isNaN = true := by cases p <;> decide
    rw [chars, chars, if_pos other, if_pos nan]
  · rfl

/-- The number that a text is written for, if there is one. -/
def ofChars? (p : Precision) (cs : List Char) : Option (Binary p) :=
  if cs = ['N', 'a', 'N'] then some (nan false)
  else if cs = ['i', 'n', 'f'] then some (infinite false)
  else if cs = ['-', 'i', 'n', 'f'] then some (infinite true)
  else (Decimal.read? cs).map fun (negative, d) => ofDecimal p negative d

theorem ofChars?_of_numberText {cs : List Char} {negative : Bool} {d : Decimal}
    (number : d.NumberText cs negative) : ofChars? p cs = some (ofDecimal p negative d) := by
  have other (c : Char) (letter : ¬ Numeric c) : c ∉ cs :=
    fun member => letter (number.numeric c member)
  have nan : cs ≠ ['N', 'a', 'N'] := fun same => other 'N' (by decide) (by simp [same])
  have infinity : cs ≠ ['i', 'n', 'f'] := fun same => other 'i' (by decide) (by simp [same])
  have minusInfinity : cs ≠ ['-', 'i', 'n', 'f'] := fun same =>
    other 'i' (by decide) (by simp [same])
  rw [ofChars?, if_neg nan, if_neg infinity, if_neg minusInfinity,
    Decimal.read?_eq_some_iff.mpr number]
  rfl

/-- The text of a number tells the number, but not which NaN it is. -/
theorem ofChars?_chars (x : Binary p) : ofChars? p x.chars = some x.oneNaN := by
  cases number : x.isNaN with
  | true => simp [ofChars?, chars, oneNaN, number]
  | false =>
    have same : x.oneNaN = x := by simp [oneNaN, number]
    rcases isFinite_or_isInfinite number with finite | infinite
    · obtain ⟨⟨d, text, nearest⟩, _⟩ := exists_numberText_chars (of_decide_eq_true finite)
      rw [ofChars?_of_numberText text, same, (ofDecimal_isNearest p x.negative d).unique nearest]
    · rw [same, eq_infinite infinite]
      cases p <;> cases x.negative <;> decide

theorem oneNaN_of_chars {y : Binary p} (same : x.chars = y.chars) : x.oneNaN = y.oneNaN := by
  have read := ofChars?_chars x
  rw [same, ofChars?_chars] at read
  exact (Option.some.inj read).symm

end Binary

end ScalarLowering
