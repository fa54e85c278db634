import ScalarLowering.Proofs.Lowering.CommonType
import ScalarLowering.Proofs.Lowering.Reachable

set_option autoImplicit false

/- The extremum of three or more operands by recursion: first that of all operands
but the leftmost, then that of the leftmost operand and the result. A single call
records the same as the two calls in a row, although it looks at all operands
beforehand and the second of the two sees only a value of their common type. -/

namespace ScalarLowering

namespace Operand

variable {k k' : Kernel}

theorem scalar?_eq (continues : k.Continues k') {o : Operand}
    (defined : ∀ id, o = .value id → id.index < k.size) : o.scalar? k' = o.scalar? k := by
  cases o with
  | literal l => rfl
  | tuple items => rfl
  | value id =>
    rw [scalar?, scalar?, Kernel.scalarType?, Kernel.scalarType?,
      continues.typeOf?_eq (defined id rfl)]

theorem scalarsFrom_of_scalars {args : List Operand} {operands : List ScalarOperand}
    (scalars : args.map (·.scalar? k) = operands.map some) (index : Nat) :
    scalarsFrom k index args = .ok operands := by
  induction args generalizing operands index with
  | nil =>
    obtain rfl := List.map_eq_nil_iff.mp scalars.symm
    rfl
  | cons o rest ih =>
    cases operands with
    | nil => cases scalars
    | cons s others =>
      obtain ⟨first, later⟩ := List.cons.inj scalars
      simp [scalarsFrom, scalarAt_of_scalar? first index, ih later (index + 1)]

end Operand

namespace Extremum

variable {k k' : Kernel} {which : Extremum} {args : List Operand} {id : ValueId}

theorem combineAll_value {earlier : List ScalarOperand} {last o : ScalarOperand}
    (several : earlier ≠ [])
    (run : StateT.run (earlier.foldrM which.combine last) k = .ok (o, k')) :
    ∃ id t, o = .value id t := by
  obtain ⟨first, rest, rfl⟩ := List.exists_cons_of_ne_nil several
  rw [List.foldrM_cons, StateT.run_bind] at run
  obtain ⟨⟨acc, k₁⟩, _, run⟩ := bind_ok.mp run
  obtain ⟨id, rfl⟩ := combine_value run
  exact ⟨id, _, rfl⟩

/-- The operands are two or more scalars, none of them complex, and combining them from the right
ends in the value `id` of type `t`, in the kernel `k'`. -/
structure Combines (which : Extremum) (k : Kernel) (args : List Operand)
    (earlier : List ScalarOperand) (last : ScalarOperand) (id : ValueId) (t : NumType)
    (k' : Kernel) : Prop where
  two : earlier ≠ []
  scalars : args.map (·.scalar? k) = (earlier ++ [last]).map some
  real : ∀ s ∈ earlier ++ [last], s.type.isComplex = false
  run : StateT.run (earlier.foldrM which.combine last) k = .ok (.value id t, k')

namespace Combines

variable {earlier : List ScalarOperand} {last : ScalarOperand} {t : NumType}

theorem records (combines : Combines which k args earlier last id t k') :
    k.Continues k' ∧ k'.scalarType? id = some t ∧ t.isComplex = false := by
  have fits : (Plan.extremum which earlier last).Fits k := fun s member =>
    ⟨Operand.in_of_scalars combines.scalars s member, combines.real s member⟩
  obtain ⟨_, _, run, _, real, recorded⟩ := combineAll_records which fits
  cases combines.run.symm.trans run
  exact ⟨recorded.grows.continues, recorded.inside, real⟩

theorem lower (combines : Combines which k args earlier last id t k') :
    ((Handler.extremum which).lower args).run k = .ok (.ok id, k') := by
  have count := Operand.length_eq_of_scalars combines.scalars
  have positive := List.length_pos_of_ne_nil combines.two
  rw [List.length_append, List.length_singleton] at count
  have enough : ¬ args.length < 2 := by omega
  have found := Operand.scalarsFrom_of_scalars combines.scalars 0
  have none : Plan.firstComplex? (earlier ++ [last]) = none := by
    rw [Plan.firstComplex?, List.find?_eq_none]
    intro numbered member
    simp [combines.real numbered.1 (List.fst_mem_of_mem_zipIdx member)]
  have planned : (Handler.extremum which).plan k args = .ok (.extremum which earlier last) := by
    simp [Handler.plan, Plan.ofExtremum, enough, found, none]
  have emitted : (ScalarOperand.value id t).emit.run k' = .ok (id, k') :=
    Build.cast_run_self combines.records.2.1
  rw [Handler.lower_of_ok planned, Plan.emit, StateT.run_bind, combines.run, ok_bind, emitted,
    map_ok]

end Combines

/-- A call that is accepted has combined its operands. -/
theorem combines_of_lower
    (lowered : ((Handler.extremum which).lower args).run k = .ok (.ok id, k')) :
    ∃ earlier last t, Combines which k args earlier last id t k' := by
  cases planned : (Handler.extremum which).plan k args with
  | error reason =>
    rw [Handler.lower_of_error planned] at lowered
    cases lowered
  | ok plan =>
    cases Handler.accepts_of_plan planned with
    | @extremum _ _ earlier last two scalars real =>
      have fits := (Handler.accepts_of_plan planned).fits
      obtain ⟨o, k₁, run, _⟩ := combineAll_records which fits
      obtain ⟨id', t, rfl⟩ := combineAll_value two run
      have combines : Combines which k args earlier last id' t k₁ := ⟨two, scalars, real, run⟩
      cases lowered.symm.trans combines.lower
      exact ⟨earlier, last, t, combines⟩

/-- With the result of the others, the first operand is combined last. -/
theorem Combines.cons {rest : List Operand} {earlier : List ScalarOperand}
    {s last : ScalarOperand} {first : Operand} {acc : ValueId} {t u : NumType} {k₁ : Kernel}
    (inner : Combines which k rest earlier last acc t k₁) (scalar : first.scalar? k = some s)
    (real : s.type.isComplex = false)
    (run : (which.combine s (.value acc t)).run k₁ = .ok (.value id u, k')) :
    Combines which k (first :: rest) (s :: earlier) last id u k' where
  two := List.cons_ne_nil s earlier
  scalars := by rw [List.map_cons, scalar, inner.scalars, List.cons_append, List.map_cons]
  real := List.forall_mem_cons.mpr ⟨real, inner.real⟩
  run := by
    rw [List.foldrM_cons, StateT.run_bind, inner.run]
    exact run

theorem Combines.pair {first : Operand} {s : ScalarOperand} {acc : ValueId} {t u : NumType}
    (scalar : first.scalar? k = some s) (known : k.scalarType? acc = some t)
    (real : s.type.isComplex = false) (realAcc : t.isComplex = false)
    (run : (which.combine s (.value acc t)).run k = .ok (.value id u, k')) :
    Combines which k [first, .value acc] [s] (.value acc t) id u k' where
  two := List.cons_ne_nil s []
  scalars := by
    rw [List.map_cons, List.map_singleton, scalar, Operand.scalar?, known]
    rfl
  real := List.forall_mem_cons.mpr ⟨real, List.forall_mem_singleton.mpr realAcc⟩
  run := by
    rw [List.foldrM_cons, List.foldrM_nil, pure_bind]
    exact run

theorem Combines.of_pair {first : Operand} {acc : ValueId} {t u : NumType}
    {earlier : List ScalarOperand} {last : ScalarOperand}
    (outer : Combines which k [first, .value acc] earlier last id u k')
    (known : k.scalarType? acc = some t) :
    ∃ s, first.scalar? k = some s ∧ s.type.isComplex = false ∧
      (which.combine s (.value acc t)).run k = .ok (.value id u, k') := by
  obtain ⟨s, others, rfl⟩ := List.exists_cons_of_ne_nil outer.two
  obtain ⟨scalar, later⟩ := List.cons.inj outer.scalars
  have count := congrArg List.length later
  obtain rfl : others = [] := List.eq_nil_of_length_eq_zero (by simpa using count)
  have value : (Operand.value acc).scalar? k = some last := (List.cons.inj later).1
  rw [Operand.scalar?, known] at value
  obtain rfl : .value acc t = last := Option.some.inj value
  have run := outer.run
  rw [List.foldrM_cons, List.foldrM_nil, pure_bind] at run
  exact ⟨s, scalar, outer.real s List.mem_cons_self, run⟩

/-- An extremum of three or more operands is accepted exactly if that of all but the first operand
is and then that of the first operand and its result, and it leaves the same kernel and the same
value as these two calls in a row. -/
theorem lower_iff_recursively {first : Operand} {rest : List Operand} (several : 2 ≤ rest.length)
    (defined : ∀ id, first = .value id → id.index < k.size) :
    ((Handler.extremum which).lower (first :: rest)).run k = .ok (.ok id, k') ↔
      ∃ acc k₁, ((Handler.extremum which).lower rest).run k = .ok (.ok acc, k₁) ∧
        ((Handler.extremum which).lower [first, .value acc]).run k₁ = .ok (.ok id, k') := by
  constructor
  · intro lowered
    obtain ⟨earlier, last, u, combines⟩ := combines_of_lower lowered
    obtain ⟨s, others, rfl⟩ := List.exists_cons_of_ne_nil combines.two
    obtain ⟨scalar, scalars⟩ := List.cons.inj combines.scalars
    obtain ⟨real, realLater⟩ := List.forall_mem_cons.mp combines.real
    have two : others ≠ [] := by
      rintro rfl
      have count : rest.length = 1 := Operand.length_eq_of_scalars scalars
      omega
    have run := combines.run
    rw [List.foldrM_cons, StateT.run_bind] at run
    obtain ⟨⟨o, k₁⟩, runRest, run⟩ := bind_ok.mp run
    obtain ⟨acc, t, rfl⟩ := combineAll_value two runRest
    have inner : Combines which k rest others last acc t k₁ := ⟨two, scalars, realLater, runRest⟩
    obtain ⟨continues, known, realAcc⟩ := inner.records
    have outer := Combines.pair (Operand.scalar?_mono scalar continues) known real realAcc run
    exact ⟨acc, k₁, inner.lower, outer.lower⟩
  · rintro ⟨acc, k₁, lowered, loweredLast⟩
    obtain ⟨earlier, last, t, inner⟩ := combines_of_lower lowered
    obtain ⟨continues, known, _⟩ := inner.records
    obtain ⟨_, _, u, outer⟩ := combines_of_lower loweredLast
    obtain ⟨s, scalar, real, run⟩ := outer.of_pair known
    rw [Operand.scalar?_eq continues defined] at scalar
    exact (inner.cons scalar real run).lower

/-- The least of a parameter and two literals, which are compared first. -/
theorem leastOfThree_recursively : ∃ id k' acc l,
    ((Handler.extremum .min).lower [.value ⟨0⟩, .literal (.int 3), .literal (.int 5)]).run
        (Kernel.empty.addParam (.scalar .int64)) = .ok (.ok id, k') ∧
      ((Handler.extremum .min).lower [.literal (.int 3), .literal (.int 5)]).run
        (Kernel.empty.addParam (.scalar .int64)) = .ok (.ok acc, l) ∧
      ((Handler.extremum .min).lower [.value ⟨0⟩, .value acc]).run l = .ok (.ok id, k') := by
  have lowered : ∃ id k',
      ((Handler.extremum .min).lower [.value ⟨0⟩, .literal (.int 3), .literal (.int 5)]).run
        (Kernel.empty.addParam (.scalar .int64)) = .ok (.ok id, k') := ⟨_, _, rfl⟩
  have defined : ∀ id, Operand.value ⟨0⟩ = .value id →
      id.index < (Kernel.empty.addParam (.scalar .int64)).size := by
    rintro _ ⟨⟩
    decide
  obtain ⟨id, k', lowered⟩ := lowered
  obtain ⟨acc, l, first, second⟩ := (lower_iff_recursively (by decide) defined).mp lowered
  exact ⟨id, k', acc, l, lowered, first, second⟩

end Extremum

end ScalarLowering
