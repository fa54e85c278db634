import ScalarLowering.Proofs.Lowering.Extremum
import ScalarLowering.Proofs.Value.Integer

set_option autoImplicit false

/- The extremum of booleans and integers. Every choice is made at the common type of
its two sides, so that the result is the least or greatest operand as long as
none of them wraps at a common type on the way. -/

namespace ScalarLowering

namespace Extremum

/-- The lesser or greater of two integers. -/
def pick (which : Extremum) (x y : Int) : Int :=
  match which with
  | .min => Min.min x y
  | .max => Max.max x y

/-- `m` is the least or greatest of some integers. -/
def IsOf (which : Extremum) (m : Int) (xs : List Int) : Prop :=
  m ∈ xs ∧ ∀ x ∈ xs,
    match which with
    | .min => m ≤ x
    | .max => x ≤ m

variable {which : Extremum} {x y m : Int} {xs : List Int}

theorem pick_eq_or (which : Extremum) (x y : Int) : which.pick x y = x ∨ which.pick x y = y := by
  cases which <;> simp only [pick] <;> omega

theorem isOf_singleton (which : Extremum) (x : Int) : which.IsOf x [x] := by
  refine ⟨List.mem_singleton_self x, fun y member => ?_⟩
  rw [List.mem_singleton.mp member]
  cases which <;> exact Int.le_refl x

theorem IsOf.cons (least : which.IsOf m xs) (x : Int) : which.IsOf (which.pick x m) (x :: xs) := by
  obtain ⟨member, bound⟩ := least
  constructor
  · rcases which.pick_eq_or x m with first | later
    · rw [first]
      exact List.mem_cons_self
    · rw [later]
      exact List.mem_cons_of_mem x member
  · intro y other
    rcases List.mem_cons.mp other with rfl | behind
    · cases which <;> simp only [pick] <;> omega
    · have ahead := bound y behind
      cases which <;> simp only [pick] at ahead ⊢ <;> omega

theorem IsOf.unique (first : which.IsOf x xs) (second : which.IsOf y xs) : x = y := by
  have one := first.2 y second.1
  have other := second.2 x first.1
  cases which <;> simp only at one other <;> omega

theorem isOf_perm {ys : List Int} (perm : ys.Perm xs) (least : which.IsOf m xs) :
    which.IsOf m ys :=
  ⟨perm.mem_iff.mpr least.1, fun x member => least.2 x (perm.mem_iff.mp member)⟩

/-- The left of two integers is ahead of the right one. -/
theorem compare?_of_integers {a b : Value} (left : a.integer? = some x)
    (right : b.integer? = some y) (which : Extremum) :
    a.compare? which.predicate b = some (decide (which.pick x y = x ∧ x ≠ y)) := by
  have order : which.predicate.holds (some (compare x y)) =
      decide (which.pick x y = x ∧ x ≠ y) := by
    rw [Bool.eq_iff_iff, decide_eq_true_iff]
    cases which with
    | min =>
      rw [holds_min_iff, Option.some.injEq, Int.compare_eq_lt, pick]
      omega
    | max =>
      rw [holds_max_iff, Option.some.injEq, Int.compare_eq_gt, pick]
      omega
  simp only [Value.compare?, Value.number_of_integer? left, Value.number_of_integer? right, order]

end Extremum

namespace Value

variable {which : Extremum} {a b : Value} {x y : Int}

/-- A choice between integers picks one of the two as they are at their common type. -/
theorem integer?_choose (left : a.integer? = some x) (right : b.integer? = some y) :
    (a.choose which b).integer? =
      some (which.pick (atCommonType (a.type.isSignedInt || b.type.isSignedInt) x)
        (atCommonType (a.type.isSignedInt || b.type.isSignedInt) y)) := by
  have whole := isWhole_of_integer? left
  have whole' := isWhole_of_integer? right
  have left' := integer?_cast_promote left whole'
  have right' := integer?_cast_promote right whole
  rw [NumType.promote_comm] at right'
  rw [NumType.isSignedInt_promote whole whole'] at left' right'
  rw [choose, Extremum.compare?_of_integers left' right' which]
  generalize atCommonType _ x = x' at left' ⊢
  generalize atCommonType _ y = y' at right' ⊢
  by_cases ahead : which.pick x' y' = x' ∧ x' ≠ y'
  · rw [decide_eq_true ahead, if_pos rfl, left', ahead.1]
  · have behind : which.pick x' y' = y' := by
      rcases which.pick_eq_or x' y' with first | second
      · by_cases same : x' = y'
        · rw [first, same]
        · exact absurd ⟨first, same⟩ ahead
      · exact second
    rw [decide_eq_false ahead, if_neg (by decide), right', behind]

/-- Integers that their common type holds are compared as they are. -/
theorem integer?_choose_of_small (left : a.integer? = some x) (right : b.integer? = some y)
    (small : (a.type.isSignedInt || b.type.isSignedInt) = true → x < 2 ^ 63 ∧ y < 2 ^ 63) :
    (a.choose which b).integer? = some (which.pick x y) := by
  rw [integer?_choose left right, atCommonType_of_small fun signed => (small signed).1,
    atCommonType_of_small fun signed => (small signed).2]

theorem isSignedInt_choose (left : a.type.isWhole = true) (right : b.type.isWhole = true) :
    (a.choose which b).type.isSignedInt = (a.type.isSignedInt || b.type.isSignedInt) := by
  rw [type_choose, NumType.isSignedInt_promote left right]

/-- The integers that the values stand for. -/
def integers (vs : List Value) : List Int := vs.filterMap (·.integer?)

/-- Either no value is signed, or no integer is beyond the reach of the signed types. -/
def FitTogether (vs : List Value) : Prop :=
  (∀ v ∈ vs, v.type.isSignedInt = false) ∨
    ∀ v ∈ vs, v.type = .int .unsigned .w64 → ∀ x, v.integer? = some x → x < 2 ^ 63

theorem integers_lt_of_fitTogether {vs : List Value} (fit : FitTogether vs)
    (signed : ∃ v ∈ vs, v.type.isSignedInt = true) : ∀ x ∈ integers vs, x < 2 ^ 63 := by
  obtain ⟨u, among, signed⟩ := signed
  rcases fit with none | small
  · rw [none u among] at signed
    cases signed
  · intro x member
    obtain ⟨v, present, stands⟩ := List.mem_filterMap.mp member
    by_cases widest : v.type = .int .unsigned .w64
    · exact small v present widest x stands
    · exact Int.lt_of_le_of_lt (holds_of_integer? stands).upper (NumType.greatest_lt widest)

/-- A fold over integers that fit is one of them, and signed only if one of the values is. -/
theorem foldr_choose_integer (which : Extremum) (signed : Bool) (earlier : List Value)
    (last : Value) (whole : ∀ v ∈ earlier ++ [last], v.type.isWhole = true)
    (signs : ∀ v ∈ earlier ++ [last], v.type.isSignedInt = true → signed = true)
    (small : signed = true → ∀ x ∈ integers (earlier ++ [last]), x < 2 ^ 63) :
    ((earlier.foldr (·.choose which ·) last).type.isSignedInt = true → signed = true) ∧
      ∃ m, (earlier.foldr (·.choose which ·) last).integer? = some m ∧
        which.IsOf m (integers (earlier ++ [last])) := by
  induction earlier with
  | nil =>
    obtain ⟨x, stands⟩ := exists_integer? (whole last (List.mem_singleton_self last))
    refine ⟨signs last (List.mem_singleton_self last), x, stands, ?_⟩
    rw [List.nil_append, integers, List.filterMap_cons_some stands, List.filterMap_nil]
    exact which.isOf_singleton x
  | cons v rest ih =>
    obtain ⟨x, stands⟩ := exists_integer? (whole v List.mem_cons_self)
    have members : integers (v :: rest ++ [last]) = x :: integers (rest ++ [last]) :=
      List.filterMap_cons_some stands
    rw [members] at small ⊢
    obtain ⟨sign, m, folded, extreme⟩ := ih
      (fun u member => whole u (List.mem_cons_of_mem v member))
      (fun u member => signs u (List.mem_cons_of_mem v member))
      (fun sign y member => small sign y (List.mem_cons_of_mem x member))
    have either : (v.type.isSignedInt ||
        (rest.foldr (·.choose which ·) last).type.isSignedInt) = true → signed = true := by
      intro one
      rcases Bool.or_eq_true_iff.mp one with first | later
      · exact signs v List.mem_cons_self first
      · exact sign later
    rw [List.foldr_cons, isSignedInt_choose (isWhole_of_integer? stands)
      (isWhole_of_integer? folded)]
    refine ⟨either, which.pick x m, ?_, extreme.cons x⟩
    apply integer?_choose_of_small stands folded
    intro one
    exact ⟨small (either one) x List.mem_cons_self,
      small (either one) m (List.mem_cons_of_mem x extreme.1)⟩

theorem foldr_choose_of_fitTogether (which : Extremum) {earlier : List Value} {last : Value}
    (whole : ∀ v ∈ earlier ++ [last], v.type.isWhole = true)
    (fit : FitTogether (earlier ++ [last])) :
    ∃ m, (earlier.foldr (·.choose which ·) last).integer? = some m ∧
      which.IsOf m (integers (earlier ++ [last])) := by
  have signed : (earlier ++ [last]).any (·.type.isSignedInt) = true →
      ∀ x ∈ integers (earlier ++ [last]), x < 2 ^ 63 := by
    intro one
    obtain ⟨v, member, sign⟩ := List.any_eq_true.mp one
    exact integers_lt_of_fitTogether fit ⟨v, member, sign⟩
  exact (foldr_choose_integer which _ earlier last whole
    (fun v member sign => List.any_eq_true.mpr ⟨v, member, sign⟩) signed).2

theorem FitTogether.perm {vs vs' : List Value} (fit : FitTogether vs) (perm : vs'.Perm vs) :
    FitTogether vs' := by
  rcases fit with none | small
  · exact Or.inl fun v member => none v (perm.mem_iff.mp member)
  · exact Or.inr fun v member => small v (perm.mem_iff.mp member)

end Value

namespace Extremum

variable {k : Kernel} {bound : Nat → Option Value} {args : List Operand} {vs : List Value}
variable {which : Extremum}

/-- Booleans and integers that fit together yield the least or greatest integer among them. -/
theorem yields_integer (typed : k.WellTyped) (which : Extremum) (two : 2 ≤ args.length)
    (values : List.Forall₂ (Operand.Evaluates k bound) args vs)
    (whole : ∀ v ∈ vs, v.type.isWhole = true) (fit : Value.FitTogether vs) :
    ∃ v m, broadcastType ((vs.map (·.type)).map .typed) = some v.type ∧ v.integer? = some m ∧
      which.IsOf m (Value.integers vs) ∧
      ∃ id k', (Handler.extremum which).Yields k bound args id k' v := by
  obtain ⟨earlier, last, rfl, several⟩ := exists_concat two values
  obtain ⟨m, folded, extreme⟩ := Value.foldr_choose_of_fitTogether which whole fit
  exact ⟨_, m, Value.broadcastType_choose which earlier last, folded, extreme,
    yields typed which earlier last several values fun v member =>
      NumType.isComplex_of_isWhole (whole v member)⟩

/-- The least or greatest of booleans and integers that fit together is theirs in any order: the
same value is yielded, at the common type of all of them. -/
theorem yields_extreme_integer (typed : k.WellTyped) (which : Extremum) (two : 2 ≤ args.length)
    (values : List.Forall₂ (Operand.Evaluates k bound) args vs)
    (whole : ∀ v ∈ vs, v.type.isWhole = true) (fit : Value.FitTogether vs) :
    ∃ v m, broadcastType ((vs.map (·.type)).map .typed) = some v.type ∧ v.integer? = some m ∧
      which.IsOf m (Value.integers vs) ∧
      ∀ args', args'.Perm args →
        ∃ id k', (Handler.extremum which).Yields k bound args' id k' v := by
  obtain ⟨v, m, type, stands, extreme, _⟩ := yields_integer typed which two values whole fit
  refine ⟨v, m, type, stands, extreme, fun args' perm => ?_⟩
  obtain ⟨vs', values', reordered⟩ := List.perm_comp_forall₂ perm values
  obtain ⟨v', m', type', stands', extreme', yields⟩ := yields_integer typed which
    (perm.length_eq ▸ two) values' (fun v member => whole v (reordered.mem_iff.mp member))
    (fit.perm reordered)
  -- The common type and the integer do not depend on the order, and they determine the value.
  rw [broadcastType_perm (reordered.map (·.type)), type] at type'
  have among : (Value.integers vs').Perm (Value.integers vs) := reordered.filterMap _
  obtain rfl : m' = m := extreme'.unique (isOf_perm among extreme)
  rw [Value.eq_of_integer? (Option.some.inj type') stands stands']
  exact yields

/-- Values of four types. -/
def mixed : List Value :=
  [.int .unsigned .w64 200, .bool true, .int .signed .w16 (-7), .int .signed .w64 3]

/-- Three parameters and a literal. -/
def mixedArgs : List Operand := [.value ⟨0⟩, .value ⟨1⟩, .value ⟨2⟩, .literal (.int 3)]

theorem mixed_yields_least : ∃ id k',
    (Handler.extremum .min).Yields (.ofParams (mixed.map (·.type))) (mixed[·]?) mixedArgs.reverse
      id k' (.int .signed .w64 (-7)) := by
  have values : List.Forall₂ (Operand.Evaluates (.ofParams (mixed.map (·.type))) (mixed[·]?))
      mixedArgs mixed := .cons rfl (.cons rfl (.cons rfl (.cons rfl .nil)))
  obtain ⟨v, m, type, stands, extreme, yields⟩ := yields_extreme_integer
    (Kernel.ofParams_wellTyped _) .min (by decide) values (by decide) (.inr (by decide))
  have least : Extremum.min.IsOf (-7) (Value.integers mixed) := by
    unfold IsOf
    decide
  obtain rfl : m = -7 := extreme.unique least
  obtain rfl : v = .int .signed .w64 (-7) :=
    Value.eq_of_integer? (Option.some.inj type).symm stands rfl
  exact yields mixedArgs.reverse mixedArgs.reverse_perm

end Extremum

end ScalarLowering
