import ScalarLowering.Lowering.Plan
import ScalarLowering.Proofs.Kernel.Typing

set_option autoImplicit false

/- What the operations of a builder record. Each lemma says that the operation
succeeds, that the kernel grows, and what the new value is; the kernel before
need not be well typed, but only then is the new value told by the old ones. -/

namespace ScalarLowering

namespace ScalarOperand

/-- A value operand has the scalar type that it is taken for. -/
def In (k : Kernel) : ScalarOperand → Prop
  | .literal _ => True
  | .value id t => k.scalarType? id = some t

def outcome (k : Kernel) (bound : Nat → Option Value) : ScalarOperand → Except EvalError Value
  | .literal l => .ok (.ofLiteral l)
  | .value id _ => k.demand bound id

variable {k k' : Kernel} {o : ScalarOperand}

theorem In.mono (inside : o.In k) (continues : k.Continues k') : o.In k' := by
  cases o with
  | literal l => trivial
  | value id t => exact continues.scalarType?_some inside

theorem In.outcome_eq (inside : o.In k) (continues : k.Continues k')
    (bound : Nat → Option Value) : o.outcome k' bound = o.outcome k bound := by
  cases o with
  | literal l => rfl
  | value id t => exact continues.demand_eq bound (Kernel.index_lt_of_scalarType? inside)

theorem In.typed (inside : o.In k) {bound : Nat → Option Value} (sound : k.Sound bound) :
    Outcome (fun _ => True) o.type (o.outcome k bound) := by
  cases o with
  | literal l => cases l <;> exact rfl
  | value id t => exact sound id t inside

end ScalarOperand

/-- `k` has grown to `k'`, where `o` is a scalar with the given outcome. -/
structure Recorded (k k' : Kernel) (o : ScalarOperand)
    (outcome : (Nat → Option Value) → Except EvalError Value) : Prop where
  grows : k.Grows k'
  inside : o.In k'
  outcome : ∀ bound, k.Sound bound → o.outcome k' bound = outcome bound

namespace Recorded

variable {k k' k'' : Kernel} {o : ScalarOperand}
variable {outcome outcome' : (Nat → Option Value) → Except EvalError Value}

theorem keep (recorded : Recorded k k' o outcome) (grows : k'.Grows k'') :
    Recorded k k'' o outcome where
  grows := recorded.grows.trans grows
  inside := recorded.inside.mono grows.continues
  outcome := fun bound sound =>
    (recorded.inside.outcome_eq grows.continues bound).trans (recorded.outcome bound sound)

theorem after (recorded : Recorded k' k'' o outcome') (grows : k.Grows k')
    (same : ∀ bound, k.Sound bound → outcome' bound = outcome bound) :
    Recorded k k'' o outcome where
  grows := grows.trans recorded.grows
  inside := recorded.inside
  outcome := fun bound sound =>
    (recorded.outcome bound (grows.sound sound)).trans (same bound sound)

theorem demand_eq {id : ValueId} {t : NumType} (recorded : Recorded k k' (.value id t) outcome)
    {bound : Nat → Option Value} (sound : k.Sound bound) : k'.demand bound id = outcome bound :=
  recorded.outcome bound sound

theorem of_push {i : Instruction} {t : NumType} (typed : i.WellTyped k k.size)
    (scalar : i.type = .scalar t) (notParam : ∀ index, i.operation ≠ .param index) :
    Recorded k (k.push i) (.value ⟨k.size⟩ t)
      fun bound => i.demand bound ⟨k.size⟩ (k.demand bound) where
  grows := .push typed notParam
  inside := Kernel.scalarType?_push scalar
  outcome := by
    intro bound _
    have before : ∀ operand ∈ i.operation.operands, operand.index < k.size := by
      intro operand member
      exact (typed.operand_scalar operand member).choose_spec.1
    refine (Kernel.demand_of_some bound (Kernel.instruction?_push i)
      fun operand member => Or.inl (before operand member)).trans ?_
    apply Instruction.demand_congr
    intro operand member
    exact (Kernel.continues_push i).demand_eq bound (before operand member)

end Recorded

/-- A literal recorded as a constant. -/
def Instruction.literal (l : Literal) (t : NumType) : Instruction where
  type := .scalar t
  operation := .const ((Value.ofLiteral l).cast t)

theorem Instruction.literal_wellTyped (k : Kernel) (position : Nat) (l : Literal) (t : NumType) :
    (Instruction.literal l t).WellTyped k position := by
  have type := Value.type_cast (.ofLiteral l) t
  have typed := @Instruction.WellTyped.const k position ((Value.ofLiteral l).cast t)
  rwa [type] at typed

namespace Build

theorem record_run (i : Instruction) (k : Kernel) :
    (record i).run k = .ok (⟨k.size⟩, k.push i) := rfl

/-- Run in `k`, the operation returns a new or old scalar of type `t` with the given outcome. -/
def Records (m : Build ValueId) (k : Kernel) (t : NumType)
    (outcome : (Nat → Option Value) → Except EvalError Value) : Prop :=
  ∃ id k', m.run k = .ok (id, k') ∧ Recorded k k' (.value id t) outcome

theorem constant_run (l : Literal) (t : NumType) (k : Kernel) :
    (constant l t).run k = .ok (⟨k.size⟩, k.push (.literal l t)) := rfl

section

variable {k : Kernel} {s t : NumType}

theorem cast_run_self {source : ValueId} (scalar : k.scalarType? source = some t) :
    (cast source t).run k = .ok (source, k) := by
  simp [cast, scalar]

theorem cast_run {source : ValueId} (scalar : k.scalarType? source = some s) (changes : s ≠ t) :
    (cast source t).run k = (record ⟨.scalar t, .cast source⟩).run k := by
  simp [cast, scalar, changes]

theorem compare_run (predicate : Predicate) {lhs rhs : ValueId}
    (left : k.scalarType? lhs = some t) (right : k.scalarType? rhs = some t) :
    (compare predicate lhs rhs).run k =
      (record ⟨.scalar .bool, .compare predicate lhs rhs⟩).run k := by
  simp [compare, left, right]

theorem select_run (condition : ValueId) {onTrue : ValueId} (onFalse : ValueId)
    (left : k.scalarType? onTrue = some t) :
    (select condition onTrue onFalse).run k =
      (record ⟨.scalar t, .select condition onTrue onFalse⟩).run k := by
  simp [select, typeOr, Kernel.typeOf?_of_scalarType? left]

theorem neg_run {operand : ValueId} (scalar : k.scalarType? operand = some t) :
    (neg operand).run k = (record ⟨.scalar t, .neg operand⟩).run k := by
  simp [neg, typeOr, Kernel.typeOf?_of_scalarType? scalar]

theorem call_run (symbol : String) (args : List ValueId) {template : ValueId} (decorated : Bool)
    (scalar : k.scalarType? template = some t) :
    (call symbol args template decorated).run k =
      (record ⟨.scalar t, .call symbol args template decorated⟩).run k := by
  simp [call, typeOr, Kernel.typeOf?_of_scalarType? scalar]

end

theorem constant_records (k : Kernel) (l : Literal) (t : NumType) :
    Records (constant l t) k t fun _ => .ok ((Value.ofLiteral l).cast t) :=
  ⟨_, _, constant_run l t k,
    .of_push (Instruction.literal_wellTyped k k.size l t) rfl (fun _ => nofun)⟩

theorem cast_records {k : Kernel} {source : ValueId} {s : NumType} (t : NumType)
    (scalar : k.scalarType? source = some s) :
    Records (cast source t) k t fun bound => (·.cast t) <$> k.demand bound source := by
  by_cases same : s = t
  · subst same
    refine ⟨source, k, cast_run_self scalar, .refl k, scalar, ?_⟩
    intro bound sound
    have typed := sound source s scalar
    cases result : k.demand bound source with
    | error e => simp [ScalarOperand.outcome, result]
    | ok v =>
      rw [result] at typed
      simp [ScalarOperand.outcome, result, Value.cast_of_type typed]
  · have typed : Instruction.WellTyped k k.size ⟨.scalar t, .cast source⟩ :=
      .cast ⟨Kernel.index_lt_of_scalarType? scalar, scalar⟩ same
    refine ⟨⟨k.size⟩, _, cast_run scalar same,
      (Recorded.of_push typed rfl (fun _ => nofun)).after (.refl k) ?_⟩
    intro bound _
    simp only [Instruction.demand, ValueType.demanded, ok_bind]
    cases k.demand bound source <;> rfl

theorem compare_records {k : Kernel} {lhs rhs : ValueId} {t : NumType} (predicate : Predicate)
    (left : k.scalarType? lhs = some t) (right : k.scalarType? rhs = some t)
    (real : t.isComplex = false) :
    Records (compare predicate lhs rhs) k .bool (fun bound => do
      let a ← k.demand bound lhs
      let b ← k.demand bound rhs
      predicate.apply a b) := by
  have typed : Instruction.WellTyped k k.size ⟨.scalar .bool, .compare predicate lhs rhs⟩ :=
    .compare ⟨Kernel.index_lt_of_scalarType? left, left⟩
      ⟨Kernel.index_lt_of_scalarType? right, right⟩ real
  exact ⟨⟨k.size⟩, _, compare_run predicate left right, .of_push typed rfl (fun _ => nofun)⟩

theorem select_records {k : Kernel} {condition onTrue onFalse : ValueId} {t : NumType}
    (bool : k.scalarType? condition = some .bool) (left : k.scalarType? onTrue = some t)
    (right : k.scalarType? onFalse = some t) :
    Records (select condition onTrue onFalse) k t (fun bound => do
      match ← k.demand bound condition with
      | .bool b => k.demand bound (if b then onTrue else onFalse)
      | _ => .error (.nonBoolCondition condition)) := by
  have typed : Instruction.WellTyped k k.size ⟨.scalar t, .select condition onTrue onFalse⟩ :=
    .select ⟨Kernel.index_lt_of_scalarType? bool, bool⟩
      ⟨Kernel.index_lt_of_scalarType? left, left⟩ ⟨Kernel.index_lt_of_scalarType? right, right⟩
  refine ⟨⟨k.size⟩, _, select_run condition onFalse left,
    (Recorded.of_push typed rfl (fun _ => nofun)).after (.refl k) ?_⟩
  intro bound _
  simp only [Instruction.demand, ValueType.demanded, ok_bind]
  cases k.demand bound condition with
  | error e => rfl
  | ok c =>
    cases c with
    | bool b =>
      simp only [ok_bind]
      cases k.demand bound (if b then onTrue else onFalse) <;> rfl
    | _ => rfl

theorem neg_records {k : Kernel} {operand : ValueId} {t : NumType}
    (scalar : k.scalarType? operand = some t) (int : t.isInt = true) :
    Records (neg operand) k t (fun bound => do (← k.demand bound operand).negate) := by
  have typed : Instruction.WellTyped k k.size ⟨.scalar t, .neg operand⟩ :=
    .neg ⟨Kernel.index_lt_of_scalarType? scalar, scalar⟩ int
  exact ⟨⟨k.size⟩, _, neg_run scalar, .of_push typed rfl (fun _ => nofun)⟩

/-- The template is recorded right before the call, as a zero of the result's type. -/
theorem call_records {k : Kernel} {r : Routine} {t : NumType} {symbol : String}
    {args : List ValueId} (accepted : r.accepts t = true) (exported : r.symbol? t = some symbol)
    (count : args.length = r.arity) (scalar : ∀ arg ∈ args, k.scalarType? arg = some t) :
    Records (do call symbol args (← constant (.int 0) (r.result t)) false) k (r.result t)
      (fun bound => do MathRoutine.call symbol (← args.mapM (k.demand bound)) (r.result t)) := by
  let zero := Instruction.literal (.int 0) (r.result t)
  have grows : k.Grows (k.push zero) :=
    .push (Instruction.literal_wellTyped k k.size (.int 0) (r.result t)) (fun _ => nofun)
  have inside : ∀ arg ∈ args, arg.index < k.size := fun arg member =>
    Kernel.index_lt_of_scalarType? (scalar arg member)
  have typed : Instruction.WellTyped (k.push zero) (k.push zero).size
      ⟨.scalar (r.result t), .call symbol args ⟨k.size⟩ false⟩ := by
    refine .call accepted exported count ?_ ?_ (Kernel.instruction?_push zero)
    · intro arg member
      have before := inside arg member
      refine ⟨?_, grows.continues.scalarType?_some (scalar arg member)⟩
      rw [Kernel.size_push]
      omega
    · rw [Kernel.size_push]
      exact Nat.lt_succ_self k.size
  have template : (k.push zero).scalarType? ⟨k.size⟩ = some (r.result t) :=
    Kernel.scalarType?_push rfl
  refine ⟨_, _, ?_, (Recorded.of_push typed rfl (by rintro _ ⟨⟩)).after grows ?_⟩
  · rw [StateT.run_bind, constant_run]
    exact call_run symbol args false template
  · intro bound _
    have same : args.mapM ((k.push zero).demand bound) = args.mapM (k.demand bound) :=
      mapM_congr_of_mem fun arg member => grows.continues.demand_eq bound (inside arg member)
    simp only [Instruction.demand, ValueType.demanded, same, ok_bind]

end Build

end ScalarLowering
