import ScalarLowering.Proofs.Binary.Order
import ScalarLowering.Proofs.Lowering.Extremum

set_option autoImplicit false

/- The extremum of floating-point numbers of one type. A NaN is never ahead of
anything and nothing is ahead of it, so that it is passed over unless it comes
last. Of equal numbers the later one is returned. -/

namespace ScalarLowering

namespace Extremum

variable {p : Precision} {which : Extremum} {x y : Binary p} {xs : List (Binary p)}

/-- No less extreme than another value. -/
def NotBehind (which : Extremum) (a b : WithBot (WithTop ℚ)) : Prop :=
  match which with
  | .min => a ≤ b
  | .max => b ≤ a

theorem NotBehind.refl (which : Extremum) (a : WithBot (WithTop ℚ)) : which.NotBehind a a := by
  cases which <;> exact le_refl a

theorem NotBehind.trans {a b c : WithBot (WithTop ℚ)} (first : which.NotBehind a b)
    (second : which.NotBehind b c) : which.NotBehind a c := by
  cases which with
  | min => exact le_trans (α := WithBot (WithTop ℚ)) first second
  | max => exact le_trans (α := WithBot (WithTop ℚ)) second first

theorem NotBehind.of_not {a b : WithBot (WithTop ℚ)} (behind : ¬ which.NotBehind a b) :
    which.NotBehind b a := by
  cases which with
  | min => exact (not_le.mp behind).le
  | max => exact (not_le.mp behind).le

/-- The first of two numbers is chosen, being strictly ahead. -/
def ahead (which : Extremum) (x y : Binary p) : Bool :=
  which.predicate.holds ((x.convert .double).order? (y.convert .double))

theorem ahead_iff : which.ahead x y = true ↔
    x.isNaN = false ∧ y.isNaN = false ∧ ¬ which.NotBehind y.extended x.extended := by
  cases which with
  | min => rw [ahead, holds_min_iff, Binary.order?_convert_eq_lt_iff, NotBehind, not_le]
  | max => rw [ahead, holds_max_iff, Binary.order?_convert_eq_gt_iff, NotBehind, not_le]

/-- The choice between two numbers. -/
def pickFloat (which : Extremum) (x y : Binary p) : Binary p := if which.ahead x y then x else y

theorem choose_float (which : Extremum) (x y : Binary p) :
    (Value.float p x).choose which (.float p y) = .float p (which.pickFloat x y) := by
  have same : (Value.float p x).type.promote (Value.float p y).type = .float p :=
    NumType.promote_self (.float p)
  have order : (Value.float p x).compare? which.predicate (.float p y) = some (which.ahead x y) :=
    rfl
  have kept (z : Binary p) : (Value.float p z).cast (.float p) = .float p z :=
    Value.cast_of_type rfl
  rw [Value.choose, same, kept, kept, order, pickFloat]
  cases which.ahead x y <;> rfl

theorem foldr_choose_float (which : Extremum) (earlier : List (Binary p)) (last : Binary p) :
    (earlier.map (Value.float p)).foldr (·.choose which ·) (.float p last) =
      .float p (earlier.foldr which.pickFloat last) := by
  induction earlier with
  | nil => rfl
  | cons x rest ih => rw [List.map_cons, List.foldr_cons, ih, choose_float, List.foldr_cons]

/-- At this position stands a number that no number is ahead of. -/
def ForemostAt (which : Extremum) (xs : List (Binary p)) (position : Nat) : Prop :=
  ∃ x, xs[position]? = some x ∧ x.isNaN = false ∧
    ∀ y ∈ xs, y.isNaN = false → which.NotBehind x.extended y.extended

/-- The position of the operand that is returned. -/
inductive SelectsAt (which : Extremum) (xs : List (Binary p)) (position : Nat) : Prop
  | nan (last : position + 1 = xs.length) (poisoned : ∃ x, xs.getLast? = some x ∧ x.isNaN = true)
  | number (ends : ∃ x, xs.getLast? = some x ∧ x.isNaN = false)
    (foremost : which.ForemostAt xs position)
    (latest : ∀ other, which.ForemostAt xs other → other ≤ position)

/-- A number that is ahead of a foremost one is the only foremost one. -/
theorem foremostAt_cons_of_ahead {position : Nat} (behind : xs[position]? = some y)
    (foremost : which.ForemostAt xs position) (ahead : which.ahead x y = true) :
    which.ForemostAt (x :: xs) 0 ∧ ∀ other, which.ForemostAt (x :: xs) other → other ≤ 0 := by
  obtain ⟨number, number', strict⟩ := ahead_iff.mp ahead
  obtain ⟨z, found, _, extreme⟩ := foremost
  obtain rfl : y = z := Option.some.inj (behind.symm.trans found)
  have reaches (z : Binary p) (member : z ∈ x :: xs) (plain : z.isNaN = false) :
      which.NotBehind x.extended z.extended := by
    rcases List.mem_cons.mp member with rfl | later
    · exact .refl which _
    · exact (NotBehind.of_not strict).trans (extreme z later plain)
  refine ⟨⟨x, rfl, number, reaches⟩, ?_⟩
  rintro other ⟨z, found', plain, extreme'⟩
  cases other with
  | zero => exact le_rfl
  | succ other =>
    have later : z ∈ xs := List.mem_of_getElem? found'
    have back := (extreme z later plain).trans (extreme' x List.mem_cons_self number)
    exact absurd back strict

/-- What is not ahead of a foremost number leaves it so, and comes before it. -/
theorem foremostAt_cons_of_not_ahead {position : Nat} (behind : xs[position]? = some y)
    (foremost : which.ForemostAt xs position)
    (latest : ∀ other, which.ForemostAt xs other → other ≤ position)
    (ahead : ¬ which.ahead x y = true) :
    which.ForemostAt (x :: xs) (position + 1) ∧
      ∀ other, which.ForemostAt (x :: xs) other → other ≤ position + 1 := by
  obtain ⟨z, found, number, extreme⟩ := foremost
  obtain rfl : y = z := Option.some.inj (behind.symm.trans found)
  have reaches (z : Binary p) (member : z ∈ x :: xs) (plain : z.isNaN = false) :
      which.NotBehind y.extended z.extended := by
    rcases List.mem_cons.mp member with rfl | later
    · by_contra strict
      exact ahead (ahead_iff.mpr ⟨plain, number, strict⟩)
    · exact extreme z later plain
  refine ⟨⟨y, found, number, reaches⟩, ?_⟩
  rintro other ⟨z, found', plain, extreme'⟩
  cases other with
  | zero => exact Nat.zero_le _
  | succ other =>
    have tail : which.ForemostAt xs other :=
      ⟨z, found', plain, fun r member => extreme' r (List.mem_cons_of_mem x member)⟩
    exact Nat.succ_le_succ (latest other tail)

/-- The fold from the right ends in the selected operand. -/
theorem foldr_selectsAt (which : Extremum) (earlier : List (Binary p)) (last : Binary p) :
    ∃ position, which.SelectsAt (earlier ++ [last]) position ∧
      (earlier ++ [last])[position]? = some (earlier.foldr which.pickFloat last) := by
  induction earlier with
  | nil =>
    refine ⟨0, ?_, rfl⟩
    cases kind : last.isNaN with
    | true => exact .nan rfl ⟨last, rfl, kind⟩
    | false =>
      have foremost : which.ForemostAt [last] 0 := by
        refine ⟨last, rfl, kind, fun y member _ => ?_⟩
        rw [List.mem_singleton.mp member]
        exact .refl which _
      refine .number ⟨last, rfl, kind⟩ foremost ?_
      rintro other ⟨x, found, _⟩
      have inside := (List.getElem?_eq_some_iff.mp found).1
      exact Nat.le_of_lt_succ inside
  | cons x rest ih =>
    obtain ⟨position, selects, behind⟩ := ih
    have ends : (x :: rest ++ [last]).getLast? = (rest ++ [last]).getLast? := by
      rw [List.getLast?_concat, List.getLast?_concat]
    rw [List.foldr_cons, pickFloat]
    by_cases first : which.ahead x (rest.foldr which.pickFloat last) = true
    · rw [if_pos first]
      refine ⟨0, ?_, rfl⟩
      cases selects with
      | nan atEnd poisoned =>
        obtain ⟨z, found, nan⟩ := poisoned
        rw [List.getLast?_eq_getElem?, ← atEnd, Nat.add_sub_cancel, behind] at found
        have number := (ahead_iff.mp first).2.1
        rw [Option.some.inj found, nan] at number
        cases number
      | number ends' foremost latest =>
        obtain ⟨foremost', latest'⟩ := foremostAt_cons_of_ahead behind foremost first
        exact .number (ends ▸ ends') foremost' latest'
    · rw [if_neg first]
      refine ⟨position + 1, ?_, behind⟩
      cases selects with
      | nan atEnd poisoned => exact .nan (congrArg Nat.succ atEnd) (ends ▸ poisoned)
      | number ends' foremost latest =>
        obtain ⟨foremost', latest'⟩ := foremostAt_cons_of_not_ahead behind foremost latest first
        exact .number (ends ▸ ends') foremost' latest'

variable {k : Kernel} {bound : Nat → Option Value} {args : List Operand}

/-- Floating-point operands of one type yield the selected one of them, bit for bit. -/
theorem yields_selected_float (typed : k.WellTyped) (which : Extremum) (two : 2 ≤ args.length)
    (values : List.Forall₂ (Operand.Evaluates k bound) args (xs.map (Value.float p))) :
    ∃ position x, which.SelectsAt xs position ∧ xs[position]? = some x ∧
      ∃ id k', (Handler.extremum which).Yields k bound args id k' (.float p x) := by
  rw [values.length_eq, List.length_map] at two
  have nonempty : xs ≠ [] := List.ne_nil_of_length_pos (by omega)
  obtain ⟨earlier, last, rfl⟩ : ∃ earlier last, xs = earlier ++ [last] :=
    ⟨_, _, (List.dropLast_concat_getLast nonempty).symm⟩
  obtain ⟨position, selects, found⟩ := foldr_selectsAt which earlier last
  refine ⟨position, _, selects, found, ?_⟩
  rw [List.map_append, List.map_singleton] at values
  rw [← foldr_choose_float]
  refine yields typed which _ _ ?_ values ?_
  · rintro none
    rw [List.map_eq_nil_iff.mp none] at two
    cases two with
    | step less => cases less
  · rw [← List.map_singleton, ← List.map_append]
    exact List.forall_mem_map.mpr fun x _ => rfl

/-- A NaN and both zeros. -/
def nanAndZeros : List (Binary .double) := [.nan false, .zero false, .zero true]

/-- The NaN is passed over, and the negative zero is returned because it is last. -/
theorem nanAndZeros_yields_negative_zero : ∃ id k',
    (Handler.extremum .min).Yields (.ofParams [.float64, .float64])
      ((nanAndZeros.map (Value.float .double))[·]?)
      [.value ⟨0⟩, .value ⟨1⟩, .literal (.float (.zero true))] id k'
      (.float .double (.zero true)) := by
  obtain ⟨position, x, selects, found, yields⟩ := yields_selected_float
    (Kernel.ofParams_wellTyped [.float64, .float64]) .min (by decide)
    (show List.Forall₂ (Operand.Evaluates (.ofParams [.float64, .float64])
        ((nanAndZeros.map (Value.float .double))[·]?))
      [.value ⟨0⟩, .value ⟨1⟩, .literal (.float (.zero true))]
      (nanAndZeros.map (Value.float .double)) from .cons rfl (.cons rfl (.cons rfl .nil)))
  have inside : position < 3 := (List.getElem?_eq_some_iff.mp found).1
  have foremost : Extremum.min.ForemostAt nanAndZeros 2 := by
    refine ⟨.zero true, rfl, by decide, fun y member number => ?_⟩
    have key : ¬ y.orderKey < (Binary.zero true : Binary .double).orderKey := by
      revert y
      decide
    rw [← Binary.extended_lt_iff number (by decide)] at key
    exact not_lt.mp key
  cases selects with
  | nan _ poisoned =>
    obtain ⟨z, ends, nan⟩ := poisoned
    cases ends
    cases nan
  | number _ _ latest =>
    obtain rfl : position = 2 := by
      have least := latest 2 foremost
      omega
    cases found
    exact yields

end Extremum

end ScalarLowering
