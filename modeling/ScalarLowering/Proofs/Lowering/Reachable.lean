import ScalarLowering.Proofs.Lowering.Acceptance

set_option autoImplicit false

/- Kernels built by adding parameters and lowering calls, and the types of the
values in them. -/

namespace ScalarLowering

namespace Kernel

/-- The kernel with one more parameter. -/
def addParam (k : Kernel) (type : ValueType) : Kernel where
  definitions := k.definitions.push ⟨⟨k.size⟩, type, .param k.paramCount⟩
  paramCount := k.paramCount + 1

variable {k : Kernel}

theorem instruction?_addParam (id : ValueId) (type : ValueType) :
    (k.addParam type).instruction? id = (k.push ⟨type, .param k.paramCount⟩).instruction? id := rfl

theorem continues_addParam (type : ValueType) : k.Continues (k.addParam type) :=
  continues_push ⟨type, .param k.paramCount⟩

theorem WellTyped.addParam (typed : k.WellTyped) (type : ValueType) :
    (k.addParam type).WellTyped := by
  intro id i recorded
  rw [instruction?_addParam] at recorded
  rcases instruction?_push_cases recorded with old | ⟨rfl, rfl⟩
  · exact (typed id i old).mono (continues_addParam type)
  · exact .param type k.paramCount

/-- The kernels that lead from the empty one by adding parameters and lowering calls, some of
which may be declined. Each call may be lowered by another registry. -/
inductive Reachable : Kernel → Prop
  | empty : Reachable .empty
  | param {k k' : Kernel} {t : NumType} {id : ValueId} (before : Reachable k)
    (added : (Build.param t).run k = .ok (id, k')) : Reachable k'
  | arrayParam {k k' : Kernel} {elem : NumType} {length : Option UInt64} {id : ValueId}
    (before : Reachable k) (added : (Build.arrayParam elem length).run k = .ok (id, k')) :
    Reachable k'
  | call {k k' : Kernel} {r : Registry} {key : Key} {args : List Operand}
    {outcome : Except LoweringError ValueId} (before : Reachable k)
    (lowered : (r.lowerCall key args).run k = .ok (outcome, k')) : Reachable k'

end Kernel

namespace Build

theorem newParam_run (type : ValueType) (k : Kernel) :
    (newParam type).run k = .ok (⟨k.size⟩, k.addParam type) := rfl

end Build

namespace Registry

theorem lowerCall_grows {r : Registry} {k k' : Kernel} {key : Key} {args : List Operand}
    {outcome : Except LoweringError ValueId}
    (lowered : (r.lowerCall key args).run k = .ok (outcome, k')) : k.Grows k' := by
  rcases r.lowerCall_cases k key args with
    ⟨e, declined⟩ | ⟨name, h, plan, id, grown, _, _, accepted, recorded⟩
  · rw [declined] at lowered
    cases lowered
    exact .refl k
  · rw [accepted] at lowered
    cases lowered
    exact recorded.grows

/-- The result of an accepted call is a scalar. -/
theorem lowerCall_scalar {r : Registry} {k k' : Kernel} {key : Key} {args : List Operand}
    {id : ValueId} (lowered : (r.lowerCall key args).run k = .ok (.ok id, k')) :
    ∃ t, k'.scalarType? id = some t := by
  rcases r.lowerCall_cases k key args with
    ⟨e, declined⟩ | ⟨name, h, plan, result, grown, _, _, accepted, recorded⟩
  · rw [declined] at lowered
    cases lowered
  · rw [accepted] at lowered
    cases lowered
    exact ⟨plan.type, recorded.inside⟩

end Registry

namespace Kernel

/-- What holds of the empty kernel and is kept by parameters and lowered calls holds of all kernels
that are made of them. -/
theorem Reachable.invariant {property : Kernel → Prop} {k : Kernel} (reachable : k.Reachable)
    (empty : property .empty) (addParam : ∀ k type, property k → property (k.addParam type))
    (call : ∀ {r : Registry} {key args k outcome k'},
      (r.lowerCall key args).run k = .ok (outcome, k') → property k → property k') :
    property k := by
  induction reachable with
  | empty => exact empty
  | @param k k' t id before added ih =>
    rw [Build.param, Build.newParam_run] at added
    cases added
    exact addParam k (.scalar t) ih
  | @arrayParam k k' elem length id before added ih =>
    rw [Build.arrayParam, Build.newParam_run] at added
    cases added
    exact addParam k (.array elem length) ih
  | call before lowered ih => exact call lowered ih

theorem Reachable.identified {k : Kernel} (reachable : k.Reachable) : k.Identified := by
  have continues : Kernel.empty.Continues k := by
    apply reachable.invariant
    · exact .refl .empty
    · exact fun k type before => before.trans (continues_addParam type)
    · exact fun lowered before => before.trans (Registry.lowerCall_grows lowered).continues
  exact continues.identified

theorem Reachable.wellTyped {k : Kernel} (reachable : k.Reachable) : k.WellTyped := by
  apply reachable.invariant
  · intro id i recorded
    cases recorded
  · exact fun k type typed => typed.addParam type
  · exact fun lowered typed => (Registry.lowerCall_grows lowered).wellTyped typed

/-- Every scalar parameter is bound to a value of its type. -/
def Binds (k : Kernel) (bound : Nat → Option Value) : Prop :=
  ∀ id t index, k.instruction? id = some ⟨.scalar t, .param index⟩ →
    ∃ v, bound index = some v ∧ v.type = t

variable {k : Kernel} {bound : Nat → Option Value}

/-- With its parameters bound, a scalar has a value unless the error function is missing. -/
theorem WellTyped.demand_outcome (typed : k.WellTyped) (binds : k.Binds bound) {id : ValueId}
    {t : NumType} (scalar : k.scalarType? id = some t) :
    Outcome EvalError.LacksErf t (k.demand bound id) := by
  apply outcome_from (fun id i _ recorded => typed id i recorded)
    (fun _ _ early => absurd early (Nat.not_lt_zero _)) (fun _ lacksErf => lacksErf) _ id t scalar
  intro id t index _ recorded
  obtain ⟨v, given, type⟩ := binds id t index recorded
  simp only [boundValue, given, type, if_true]
  exact type

/-- A pending value is the scalar that was asked for at first, or an operand. -/
theorem WellTyped.reaches_pending (typed : k.WellTyped) {start : ValueId} {t : NumType}
    (scalar : k.scalarType? start = some t) {s : Evaluation}
    (reached : Evaluation.Reaches k bound (.start k start) s) :
    ∀ id ∈ s.pending, ∃ t, k.scalarType? id = some t := by
  have course := reached.course (Evaluation.start_course k bound start)
  intro id waiting
  rcases (course.led id waiting).cases_tail with rfl | ⟨asking, _, i, recorded, asks⟩
  · exact ⟨t, scalar⟩
  · obtain ⟨t, _, scalar⟩ := (typed asking i recorded).operand_scalar id asks.mem_operands
    exact ⟨t, scalar⟩

/-- In a kernel made of parameters and lowered calls, a scalar evaluates to a value of the recorded
type, or else a call to the error function is in the way. On the way there nothing but scalars is
asked for. -/
theorem Reachable.eval?_sound (reachable : k.Reachable) (binds : k.Binds bound) {id : ValueId}
    {t : NumType} (scalar : k.scalarType? id = some t) :
    ((∃ v, k.eval? bound id = some (.ok v) ∧ v.type = t) ∨
      ∃ symbol, (symbol = "erf" ∨ symbol = "erff") ∧
        k.eval? bound id = some (.error (.unknownSymbol symbol 1))) ∧
    ∀ s, Evaluation.Reaches k bound (.start k id) s →
      ∀ pending ∈ s.pending, ∃ t, k.scalarType? pending = some t := by
  have typed := reachable.wellTyped
  refine ⟨?_, fun s reached => typed.reaches_pending scalar reached⟩
  have outcome := typed.demand_outcome binds scalar
  rw [typed.ordered.eval?_eq bound id]
  cases result : k.demand bound id with
  | ok v =>
    rw [result] at outcome
    exact Or.inl ⟨v, rfl, outcome⟩
  | error e =>
    rw [result] at outcome
    obtain ⟨p, rfl⟩ := outcome
    refine Or.inr ⟨erfSymbol p, ?_, rfl⟩
    cases p with
    | single => exact Or.inr rfl
    | double => exact Or.inl rfl

/-- The absolute value of a parameter. -/
def absoluteParam : Kernel where
  definitions :=
    #[⟨⟨0⟩, .scalar .int64, .param 0⟩, ⟨⟨1⟩, .scalar .int64, .const (.int .signed .w64 0)⟩,
      ⟨⟨2⟩, .scalar .bool, .compare .lt ⟨0⟩ ⟨1⟩⟩, ⟨⟨3⟩, .scalar .int64, .neg ⟨0⟩⟩,
      ⟨⟨4⟩, .scalar .int64, .select ⟨2⟩ ⟨3⟩ ⟨0⟩⟩]
  paramCount := 1

theorem absoluteParam_sound :
    absoluteParam.Reachable ∧ absoluteParam.Binds (fun _ => some (.int .signed .w64 (-3))) ∧
      ∃ v, absoluteParam.eval? (fun _ => some (.int .signed .w64 (-3))) ⟨4⟩ = some (.ok v) ∧
        v.type = .int64 := by
  have lowered : ((Registry.empty.register "abs" .abs none).lowerCall (.name "abs")
      [.value ⟨0⟩]).run (Kernel.empty.addParam (.scalar .int64)) = .ok (.ok ⟨4⟩, absoluteParam) :=
    rfl
  have param : (Build.param .int64).run .empty =
      .ok (⟨0⟩, Kernel.empty.addParam (.scalar .int64)) := rfl
  have reachable : absoluteParam.Reachable := .call (.param .empty param) lowered
  have binds : absoluteParam.Binds (fun _ => some (.int .signed .w64 (-3))) := by
    intro ⟨position⟩ t index recorded
    match position with
    | 0 =>
      cases recorded
      exact ⟨_, rfl, rfl⟩
    | 1 | 2 | 3 | 4 => cases recorded
    | _ + 5 => cases recorded
  have outcome : absoluteParam.eval? (fun _ => some (.int .signed .w64 (-3))) ⟨4⟩ =
      some (.ok (.int .signed .w64 3)) := rfl
  have scalar : absoluteParam.scalarType? ⟨4⟩ = some .int64 := rfl
  rcases (reachable.eval?_sound binds scalar).1 with value | ⟨symbol, _, missing⟩
  · exact ⟨reachable, binds, value⟩
  · rw [outcome] at missing
    cases missing

end Kernel

end ScalarLowering
