import ScalarLowering.Proofs.Lowering.IntegerExtremum

set_option autoImplicit false

/- Extremum calls that are operands of extremum calls. An operand that is grouped with unsigned
ones only is compared before a signed type makes large integers negative, so that grouping can
tell. -/

namespace ScalarLowering

namespace Extremum

variable {k : Kernel} {bound : Nat → Option Value}

/-- The call on the later two of three operands is an operand of the call on the first. -/
def RightGrouped (which : Extremum) (k : Kernel) (bound : Nat → Option Value) (a b c : Operand)
    (v : Value) : Prop :=
  ∃ inner k₁ u id k₂, (Handler.extremum which).Yields k bound [b, c] inner k₁ u ∧
    (Handler.extremum which).Yields k₁ bound [a, .value inner] id k₂ v

/-- The call on the earlier two of three operands is an operand of the call on the last. -/
def LeftGrouped (which : Extremum) (k : Kernel) (bound : Nat → Option Value) (a b c : Operand)
    (v : Value) : Prop :=
  ∃ inner k₁ u id k₂, (Handler.extremum which).Yields k bound [a, b] inner k₁ u ∧
    (Handler.extremum which).Yields k₁ bound [.value inner, c] id k₂ v

variable {a b c : Operand} {u v w : Value} {x y z : Int}

theorem yields_pair (typed : k.WellTyped) (which : Extremum) (first : a.Evaluates k bound u)
    (second : b.Evaluates k bound v) (whole : u.type.isWhole = true)
    (whole' : v.type.isWhole = true) :
    ∃ id k', (Handler.extremum which).Yields k bound [a, b] id k' (u.choose which v) := by
  refine yields typed which [u] v (List.cons_ne_nil u [])
    (.cons first (.cons second .nil)) fun r member => NumType.isComplex_of_isWhole ?_
  rcases List.mem_cons.mp member with rfl | later
  · exact whole
  · rw [List.mem_singleton.mp later]
    exact whole'

theorem isWhole_choose (which : Extremum) (whole : u.type.isWhole = true)
    (whole' : v.type.isWhole = true) : (u.choose which v).type.isWhole = true := by
  rw [Value.type_choose]
  exact NumType.isWhole_promote whole whole'

theorem rightGrouped (typed : k.WellTyped) (which : Extremum) (first : a.Evaluates k bound u)
    (second : b.Evaluates k bound v) (third : c.Evaluates k bound w)
    (whole : u.type.isWhole = true) (whole' : v.type.isWhole = true)
    (whole'' : w.type.isWhole = true) :
    which.RightGrouped k bound a b c (u.choose which (v.choose which w)) := by
  obtain ⟨inner, k₁, yields⟩ := yields_pair typed which second third whole' whole''
  obtain ⟨id, k₂, outer⟩ := yields_pair (yields.grows.wellTyped typed) which
    (first.grow typed yields.grows) yields.evaluates whole (isWhole_choose which whole' whole'')
  exact ⟨inner, k₁, _, id, k₂, yields, outer⟩

theorem leftGrouped (typed : k.WellTyped) (which : Extremum) (first : a.Evaluates k bound u)
    (second : b.Evaluates k bound v) (third : c.Evaluates k bound w)
    (whole : u.type.isWhole = true) (whole' : v.type.isWhole = true)
    (whole'' : w.type.isWhole = true) :
    which.LeftGrouped k bound a b c ((u.choose which v).choose which w) := by
  obtain ⟨inner, k₁, yields⟩ := yields_pair typed which first second whole whole'
  obtain ⟨id, k₂, outer⟩ := yields_pair (yields.grows.wellTyped typed) which
    yields.evaluates (third.grow typed yields.grows) (isWhole_choose which whole whole') whole''
  exact ⟨inner, k₁, _, id, k₂, yields, outer⟩

theorem yields_three (typed : k.WellTyped) (which : Extremum) (first : a.Evaluates k bound u)
    (second : b.Evaluates k bound v) (third : c.Evaluates k bound w)
    (whole : u.type.isWhole = true) (whole' : v.type.isWhole = true)
    (whole'' : w.type.isWhole = true) :
    ∃ id k', (Handler.extremum which).Yields k bound [a, b, c] id k'
      (u.choose which (v.choose which w)) := by
  refine yields typed which [u, v] w (List.cons_ne_nil u [v])
    (.cons first (.cons second (.cons third .nil))) fun r member => NumType.isComplex_of_isWhole ?_
  simp only [List.cons_append, List.nil_append, List.mem_cons, List.not_mem_nil, or_false] at member
  rcases member with rfl | rfl | rfl <;> assumption

/-- Of `x` and `y` exactly one turns negative at a signed type, and `s` is not ahead of both of them
there: the two change places where it counts. -/
def ChangePlaces (which : Extremum) (x y s : Int) : Prop :=
  (x < 2 ^ 63 ↔ 2 ^ 63 ≤ y) ∧
    match which with
    | .min => Max.max x y - 2 ^ 64 < s
    | .max => s < Min.min x y

theorem pick_comm (which : Extremum) (x y : Int) : which.pick x y = which.pick y x := by
  cases which with
  | min => exact Int.min_comm x y
  | max => exact Int.max_comm x y

theorem pick_assoc (which : Extremum) (x y z : Int) :
    which.pick (which.pick x y) z = which.pick x (which.pick y z) := by
  cases which with
  | min => exact Int.min_assoc x y z
  | max => exact Int.max_assoc x y z

theorem atCommonType_idem {s : Bool} (inside : x < 2 ^ 64) :
    atCommonType s (atCommonType s x) = atCommonType s x := by
  apply atCommonType_of_small
  rintro rfl
  rw [atCommonType_true]
  split <;> omega

/-- Integers that are at their common type stay there. -/
theorem atCommonType_pick (which : Extremum) {s : Bool} (inside : x < 2 ^ 64)
    (inside' : y < 2 ^ 64) :
    atCommonType s (which.pick (atCommonType s x) (atCommonType s y)) =
      which.pick (atCommonType s x) (atCommonType s y) := by
  rcases which.pick_eq_or (atCommonType s x) (atCommonType s y) with first | second
  · rw [first, atCommonType_idem inside]
  · rw [second, atCommonType_idem inside']

/-- Two unsigned integers beside a signed one: whether they are compared before they turn signed or
after it. -/
theorem pick_signed_iff (which : Extremum) (s : Int) (lower : 0 ≤ x) (upper : x < 2 ^ 64)
    (lower' : 0 ≤ y) (upper' : y < 2 ^ 64) :
    which.pick (atCommonType true (which.pick x y)) s =
        which.pick (which.pick (atCommonType true x) (atCommonType true y)) s ↔
      ¬ which.ChangePlaces x y s := by
  cases which with
  | min =>
    simp only [pick, atCommonType_true, ChangePlaces]
    omega
  | max =>
    simp only [pick, atCommonType_true, ChangePlaces]
    omega

/-- The last of three operands, or else the first, is the only signed one, and the other two change
places beside it. -/
def GroupingShows (which : Extremum) (u v w : Value) (x y z : Int) : Prop :=
  u.type.isSignedInt = false ∧ v.type.isSignedInt = false ∧ w.type.isSignedInt = true ∧
      which.ChangePlaces x y z ∨
    u.type.isSignedInt = true ∧ v.type.isSignedInt = false ∧ w.type.isSignedInt = false ∧
      which.ChangePlaces y z x

theorem integer?_choose_left (which : Extremum) (first : u.integer? = some x)
    (second : v.integer? = some y) (third : w.integer? = some z) (s t : Bool)
    (inner : (u.type.isSignedInt || v.type.isSignedInt) = s)
    (outer : (s || w.type.isSignedInt) = t) :
    ((u.choose which v).choose which w).integer? =
      some (which.pick (atCommonType t (which.pick (atCommonType s x) (atCommonType s y)))
        (atCommonType t z)) := by
  rw [Value.integer?_choose (Value.integer?_choose first second) third,
    Value.isSignedInt_choose (Value.isWhole_of_integer? first) (Value.isWhole_of_integer? second),
    inner, outer]

theorem integer?_choose_right (which : Extremum) (first : u.integer? = some x)
    (second : v.integer? = some y) (third : w.integer? = some z) (s t : Bool)
    (inner : (v.type.isSignedInt || w.type.isSignedInt) = s)
    (outer : (u.type.isSignedInt || s) = t) :
    (u.choose which (v.choose which w)).integer? =
      some (which.pick (atCommonType t x)
        (atCommonType t (which.pick (atCommonType s y) (atCommonType s z)))) := by
  rw [Value.integer?_choose first (Value.integer?_choose second third),
    Value.isSignedInt_choose (Value.isWhole_of_integer? second) (Value.isWhole_of_integer? third),
    inner, outer]

/-- All choices are made at types of one signedness. -/
theorem choose_assoc_alike (which : Extremum) (first : u.integer? = some x)
    (second : v.integer? = some y) (third : w.integer? = some z)
    (alike : (u.type.isSignedInt || v.type.isSignedInt) =
      (v.type.isSignedInt || w.type.isSignedInt)) :
    ∃ m, ((u.choose which v).choose which w).integer? = some m ∧
      (u.choose which (v.choose which w)).integer? = some m := by
  generalize inner : (u.type.isSignedInt || v.type.isSignedInt) = s at alike
  have outer : (s || w.type.isSignedInt) = s := by
    rw [alike, Bool.or_assoc, Bool.or_self]
  have outer' : (u.type.isSignedInt || s) = s := by
    rw [← inner, ← Bool.or_assoc, Bool.or_self]
  refine ⟨_, integer?_choose_left which first second third s s inner outer, ?_⟩
  rw [integer?_choose_right which first second third s s alike.symm outer',
    atCommonType_pick which (Value.lt_of_integer? first) (Value.lt_of_integer? second),
    atCommonType_pick which (Value.lt_of_integer? second) (Value.lt_of_integer? third), pick_assoc]

/-- To the left, the first two operands are compared before they turn signed. -/
theorem choose_assoc_last (which : Extremum) (first : u.integer? = some x)
    (second : v.integer? = some y) (third : w.integer? = some z)
    (plain : u.type.isSignedInt = false) (plain' : v.type.isSignedInt = false)
    (signed : w.type.isSignedInt = true) :
    ∃ l m, ((u.choose which v).choose which w).integer? = some l ∧
      (u.choose which (v.choose which w)).integer? = some m ∧
      (l = m ↔ ¬ which.ChangePlaces x y z) := by
  refine ⟨_, _,
    integer?_choose_left which first second third false true (by rw [plain, plain']; rfl)
      (by rw [signed]; rfl),
    integer?_choose_right which first second third true true (by rw [plain', signed]; rfl)
      (by rw [plain]; rfl), ?_⟩
  rw [atCommonType_false, atCommonType_false,
    atCommonType_pick which (Value.lt_of_integer? second) (Value.lt_of_integer? third),
    Value.atCommonType_of_signed third signed, ← pick_assoc]
  exact pick_signed_iff which z (Value.nonneg_of_unsigned first plain) (Value.lt_of_integer? first)
    (Value.nonneg_of_unsigned second plain') (Value.lt_of_integer? second)

/-- To the right, the last two operands are compared before they turn signed. -/
theorem choose_assoc_first (which : Extremum) (first : u.integer? = some x)
    (second : v.integer? = some y) (third : w.integer? = some z)
    (signed : u.type.isSignedInt = true) (plain : v.type.isSignedInt = false)
    (plain' : w.type.isSignedInt = false) :
    ∃ l m, ((u.choose which v).choose which w).integer? = some l ∧
      (u.choose which (v.choose which w)).integer? = some m ∧
      (l = m ↔ ¬ which.ChangePlaces y z x) := by
  refine ⟨_, _,
    integer?_choose_left which first second third true true (by rw [signed]; rfl) rfl,
    integer?_choose_right which first second third false true (by rw [plain, plain']; rfl)
      (by rw [signed]; rfl), ?_⟩
  rw [atCommonType_false, atCommonType_false,
    atCommonType_pick which (Value.lt_of_integer? first) (Value.lt_of_integer? second),
    Value.atCommonType_of_signed first signed, pick_assoc, pick_comm which x, pick_comm which x,
    eq_comm]
  exact pick_signed_iff which x (Value.nonneg_of_unsigned second plain)
    (Value.lt_of_integer? second) (Value.nonneg_of_unsigned third plain')
    (Value.lt_of_integer? third)

theorem signedness_cases (a b c : Bool) :
    (a || b) = (b || c) ∨ a = false ∧ b = false ∧ c = true ∨ a = true ∧ b = false ∧ c = false := by
  revert a b c
  decide

theorem choose_assoc_iff (which : Extremum) (first : u.integer? = some x)
    (second : v.integer? = some y) (third : w.integer? = some z) :
    ∃ l m, ((u.choose which v).choose which w).integer? = some l ∧
      (u.choose which (v.choose which w)).integer? = some m ∧
      (l = m ↔ ¬ which.GroupingShows u v w x y z) := by
  rcases signedness_cases u.type.isSignedInt v.type.isSignedInt w.type.isSignedInt with
    alike | ⟨plain, plain', signed⟩ | ⟨signed, plain, plain'⟩
  · obtain ⟨m, left, right⟩ := choose_assoc_alike which first second third alike
    refine ⟨m, m, left, right, iff_of_true rfl ?_⟩
    rintro (⟨plain, plain', signed, _⟩ | ⟨signed, plain, plain', _⟩)
    · rw [plain, plain', signed] at alike
      cases alike
    · rw [signed, plain, plain'] at alike
      cases alike
  · obtain ⟨l, m, left, right, equal⟩ :=
      choose_assoc_last which first second third plain plain' signed
    exact ⟨l, m, left, right, by simp [equal, GroupingShows, plain, plain', signed]⟩
  · obtain ⟨l, m, left, right, equal⟩ :=
      choose_assoc_first which first second third signed plain plain'
    exact ⟨l, m, left, right, by simp [equal, GroupingShows, plain, plain', signed]⟩

/-- Three booleans or integers in one call have the extremum that they have with the later two
grouped. Grouping the earlier two leads to the same integer unless the signedness of the operands
lets it show. -/
theorem yields_grouped_integer (typed : k.WellTyped) (which : Extremum)
    (first : a.Evaluates k bound u) (second : b.Evaluates k bound v)
    (third : c.Evaluates k bound w) (stands : u.integer? = some x) (stands' : v.integer? = some y)
    (stands'' : w.integer? = some z) :
    ∃ flat left : Value, ∃ m l,
      (∃ id k', (Handler.extremum which).Yields k bound [a, b, c] id k' flat) ∧
      which.RightGrouped k bound a b c flat ∧ flat.integer? = some m ∧
      which.LeftGrouped k bound a b c left ∧ left.integer? = some l ∧
      (l = m ↔ ¬ which.GroupingShows u v w x y z) := by
  have whole := Value.isWhole_of_integer? stands
  have whole' := Value.isWhole_of_integer? stands'
  have whole'' := Value.isWhole_of_integer? stands''
  obtain ⟨l, m, left, right, equal⟩ := choose_assoc_iff which stands stands' stands''
  exact ⟨_, _, m, l, yields_three typed which first second third whole whole' whole'',
    rightGrouped typed which first second third whole whole' whole'', right,
    leftGrouped typed which first second third whole whole' whole'', left, equal⟩

/-- The greatest integer of all types beside a negative one. -/
def signedBetween : List Value :=
  [.int .unsigned .w64 18446744073709551615, .int .signed .w8 (-3), .bool true]

theorem signedBetween_groupings_agree : ∃ flat left : Value, ∃ m,
    Extremum.min.RightGrouped (.ofParams (signedBetween.map (·.type))) (signedBetween[·]?)
      (.value ⟨0⟩) (.value ⟨1⟩) (.value ⟨2⟩) flat ∧ flat.integer? = some m ∧
    Extremum.min.LeftGrouped (.ofParams (signedBetween.map (·.type))) (signedBetween[·]?)
      (.value ⟨0⟩) (.value ⟨1⟩) (.value ⟨2⟩) left ∧ left.integer? = some m := by
  have typed := Kernel.ofParams_wellTyped (signedBetween.map (·.type))
  have first : (Operand.value ⟨0⟩).Evaluates (.ofParams (signedBetween.map (·.type)))
      (signedBetween[·]?) (.int .unsigned .w64 18446744073709551615) := rfl
  have second : (Operand.value ⟨1⟩).Evaluates (.ofParams (signedBetween.map (·.type)))
      (signedBetween[·]?) (.int .signed .w8 (-3)) := rfl
  have third : (Operand.value ⟨2⟩).Evaluates (.ofParams (signedBetween.map (·.type)))
      (signedBetween[·]?) (.bool true) := rfl
  obtain ⟨flat, left, m, l, _, right, stands, grouped, stands', equal⟩ :=
    yields_grouped_integer typed .min first second third rfl rfl rfl
  have hidden : ¬ Extremum.min.GroupingShows (.int .unsigned .w64 18446744073709551615)
      (.int .signed .w8 (-3)) (.bool true) 18446744073709551615 (-3) 1 := by
    rintro (⟨_, signed, _⟩ | ⟨signed, _⟩)
    · cases signed
    · cases signed
  obtain rfl : l = m := equal.mpr hidden
  exact ⟨flat, left, l, right, stands, grouped, stands'⟩

/-- Two unsigned integers, one of them beyond the reach of the signed type that comes last. -/
def signedLast : List Value :=
  [.int .unsigned .w64 9223372036854775808, .int .unsigned .w64 1, .int .signed .w64 0]

theorem signedLast_groupings_differ :
    (∃ id k', (Handler.extremum .min).Yields (.ofParams (signedLast.map (·.type)))
      (signedLast[·]?) [.value ⟨0⟩, .value ⟨1⟩, .value ⟨2⟩] id k'
      (.int .signed .w64 (-9223372036854775808))) ∧
    Extremum.min.RightGrouped (.ofParams (signedLast.map (·.type))) (signedLast[·]?)
      (.value ⟨0⟩) (.value ⟨1⟩) (.value ⟨2⟩) (.int .signed .w64 (-9223372036854775808)) ∧
    Extremum.min.LeftGrouped (.ofParams (signedLast.map (·.type))) (signedLast[·]?)
      (.value ⟨0⟩) (.value ⟨1⟩) (.value ⟨2⟩) (.int .signed .w64 0) ∧
    (Value.int .signed .w64 (-9223372036854775808)).integer? ≠
      (Value.int .signed .w64 0).integer? := by
  have typed := Kernel.ofParams_wellTyped (signedLast.map (·.type))
  have first : (Operand.value ⟨0⟩).Evaluates (.ofParams (signedLast.map (·.type))) (signedLast[·]?)
      (.int .unsigned .w64 9223372036854775808) := rfl
  have second : (Operand.value ⟨1⟩).Evaluates (.ofParams (signedLast.map (·.type)))
      (signedLast[·]?) (.int .unsigned .w64 1) := rfl
  have third : (Operand.value ⟨2⟩).Evaluates (.ofParams (signedLast.map (·.type))) (signedLast[·]?)
      (.int .signed .w64 0) := rfl
  exact ⟨yields_three typed .min first second third rfl rfl rfl,
    rightGrouped typed .min first second third rfl rfl rfl,
    leftGrouped typed .min first second third rfl rfl rfl, by decide⟩

end Extremum

end ScalarLowering
