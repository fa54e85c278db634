import ScalarLowering.Proofs.Kernel.Recording

set_option autoImplicit false

/- What is recorded for a plan. A plan that fits the kernel is carried out in any
kernel, well typed or not, and its result is told by the operands alone. -/

namespace ScalarLowering

namespace Value

/-- The left value if it is strictly ahead, or else the right one, at their common type. -/
def choose (which : Extremum) (a b : Value) : Value :=
  let t := a.type.promote b.type
  if (a.cast t).compare? which.predicate (b.cast t) = some true then a.cast t else b.cast t

end Value

namespace Plan

/-- The type of the result. -/
def type : Plan → NumType
  | .cast _ t => t
  | .length _ => .int64
  | .extremum _ earlier last => (earlier.map (·.type)).foldr .promote last.type
  | .integerAbs operand => operand.type
  | .call _ _ _ resultType => resultType

/-- What the checks of a handler establish before anything is recorded. -/
def Fits (k : Kernel) : Plan → Prop
  | .cast operand _ => operand.In k
  | .length _ => True
  | .extremum _ earlier last => ∀ o ∈ earlier ++ [last], o.In k ∧ o.type.isComplex = false
  | .integerAbs operand => operand.In k ∧ operand.type.isInt = true
  | .call symbol args argType resultType => ∃ r : Routine, r.accepts argType = true ∧
    r.symbol? argType = some symbol ∧ args.length = r.arity ∧ (∀ o ∈ args, o.In k) ∧
    resultType = r.result argType

/-- The result, from the outcomes of the operands. -/
def outcome (k : Kernel) (bound : Nat → Option Value) : Plan → Except EvalError Value
  | .cast operand t => (·.cast t) <$> operand.outcome k bound
  | .length n => .ok (.ofLiteral (.int n))
  | .extremum which earlier last => do
    let vs ← earlier.mapM (·.outcome k bound)
    let v ← last.outcome k bound
    return vs.foldr (·.choose which ·) v
  | .integerAbs operand => (fun v => v.magnitude?.getD v) <$> operand.outcome k bound
  | .call symbol args argType resultType => do
    MathRoutine.call symbol (← args.mapM fun o => (·.cast argType) <$> o.outcome k bound) resultType

end Plan

namespace ScalarOperand

variable {k : Kernel} {o : ScalarOperand}

theorem emitAs_records (inside : o.In k) (t : NumType) :
    Build.Records (o.emitAs t) k t fun bound => (·.cast t) <$> o.outcome k bound := by
  cases o with
  | literal l => exact Build.constant_records k l t
  | value id s => exact Build.cast_records t inside

/-- An operand that is recorded at its own type keeps its value. -/
theorem emit_records (inside : o.In k) :
    Build.Records o.emit k o.type (o.outcome k) := by
  obtain ⟨id, k', run, recorded⟩ := emitAs_records inside o.type
  refine ⟨id, k', run, recorded.after (.refl k) ?_⟩
  intro bound sound
  have typed := inside.typed sound
  cases result : o.outcome k bound with
  | error e => rfl
  | ok v =>
    rw [result] at typed
    rw [map_ok, Value.cast_of_type typed]

/-- Operands are recorded from left to right; nothing recorded later changes an earlier one. -/
theorem emitAs_mapM {operands : List ScalarOperand} (t : NumType)
    (inside : ∀ o ∈ operands, o.In k) :
    ∃ ids k', StateT.run (operands.mapM (·.emitAs t)) k = .ok (ids, k') ∧ k.Grows k' ∧
      ids.length = operands.length ∧ (∀ id ∈ ids, k'.scalarType? id = some t) ∧
      ∀ bound, k.Sound bound → ids.mapM (k'.demand bound) =
        operands.mapM fun o => (·.cast t) <$> o.outcome k bound := by
  induction operands generalizing k with
  | nil => exact ⟨[], k, rfl, .refl k, rfl, by simp, fun _ _ => rfl⟩
  | cons o rest ih =>
    obtain ⟨id, k₁, run, first⟩ := emitAs_records (inside o List.mem_cons_self) t
    have restIn : ∀ later ∈ rest, later.In k := fun later member =>
      inside later (List.mem_cons_of_mem o member)
    obtain ⟨ids, k₂, runs, grows, count, types, values⟩ :=
      ih fun later member => (restIn later member).mono first.grows.continues
    have kept := first.keep grows
    refine ⟨id :: ids, k₂, ?_, first.grows.trans grows, ?_, ?_, ?_⟩
    · simp [List.mapM_cons, run, runs]
    · rw [List.length_cons, List.length_cons, count]
    · intro other member
      rcases List.mem_cons.mp member with rfl | later
      · exact kept.inside
      · exact types other later
    · intro bound sound
      have same : (rest.mapM fun o => (·.cast t) <$> o.outcome k₁ bound) =
          rest.mapM fun o => (·.cast t) <$> o.outcome k bound := by
        apply mapM_congr_of_mem
        intro later member
        rw [(restIn later member).outcome_eq first.grows.continues bound]
      rw [List.mapM_cons, List.mapM_cons, kept.demand_eq sound,
        values bound (first.grows.sound sound), same]

end ScalarOperand

namespace Extremum

variable {k : Kernel}

theorem combine_records (which : Extremum) {lhs rhs : ScalarOperand} (left : lhs.In k)
    (right : rhs.In k) (real : (lhs.type.promote rhs.type).isComplex = false) :
    ∃ id k', (which.combine lhs rhs).run k = .ok (.value id (lhs.type.promote rhs.type), k') ∧
      Recorded k k' (.value id (lhs.type.promote rhs.type)) (fun bound => do
        let a ← lhs.outcome k bound
        let b ← rhs.outcome k bound
        return a.choose which b) := by
  generalize common : lhs.type.promote rhs.type = t at real
  obtain ⟨a, k₁, runLeft, first⟩ := ScalarOperand.emitAs_records left t
  have rightIn := right.mono first.grows.continues
  obtain ⟨b, k₂, runRight, second⟩ := ScalarOperand.emitAs_records rightIn t
  have first₂ := first.keep second.grows
  obtain ⟨condition, k₃, runCompare, compared⟩ :=
    Build.compare_records which.predicate first₂.inside second.inside real
  have first₃ := first₂.keep compared.grows
  have second₃ := second.keep compared.grows
  obtain ⟨id, k₄, runSelect, selected⟩ :=
    Build.select_records compared.inside first₃.inside second₃.inside
  refine ⟨id, k₄, ?_, selected.after first₃.grows ?_⟩
  · simp [combine, common, runLeft, runRight, runCompare, runSelect]
  · intro bound sound
    have sound₁ := first.grows.sound sound
    have comparison := compared.demand_eq (second.grows.sound sound₁)
    have valueLeft := first₃.demand_eq sound
    have valueRight := second₃.demand_eq sound₁
    rw [first₂.demand_eq sound, second.demand_eq sound₁] at comparison
    rw [right.outcome_eq first.grows.continues bound] at comparison valueRight
    rw [comparison]
    have typedLeft := left.typed sound
    have typedRight := right.typed sound
    cases resultLeft : lhs.outcome k bound with
    | error e => rfl
    | ok v =>
      cases resultRight : rhs.outcome k bound with
      | error e => rfl
      | ok w =>
        rw [resultLeft] at typedLeft valueLeft
        rw [resultRight] at typedRight valueRight
        have types : v.type.promote w.type = t := by rw [typedLeft, typedRight, common]
        have same : (v.cast t).type = (w.cast t).type := by rw [Value.type_cast, Value.type_cast]
        have ordered : (v.cast t).type.isComplex = false := by rw [Value.type_cast, real]
        obtain ⟨ahead, answer⟩ := Value.compare?_of_real which.predicate same ordered
        cases ahead with
        | true => simp [Predicate.apply, answer, Value.choose, types, valueLeft]
        | false => simp [Predicate.apply, answer, Value.choose, types, valueRight]

/-- The operands are combined from the right, so that an error of the leftmost one still comes
first: a choice asks for its left side before its right side. -/
theorem combineAll_records (which : Extremum) {earlier : List ScalarOperand} {last : ScalarOperand}
    (fits : (Plan.extremum which earlier last).Fits k) :
    ∃ o k', StateT.run (earlier.foldrM which.combine last) k = .ok (o, k') ∧
      o.type = (Plan.extremum which earlier last).type ∧ o.type.isComplex = false ∧
      Recorded k k' o ((Plan.extremum which earlier last).outcome k) := by
  induction earlier with
  | nil =>
    obtain ⟨inside, real⟩ := fits last List.mem_cons_self
    refine ⟨last, k, rfl, rfl, real, .refl k, inside, ?_⟩
    intro bound _
    cases result : last.outcome k bound <;> simp [Plan.outcome, result]
  | cons o rest ih =>
    obtain ⟨inside, real⟩ := fits o List.mem_cons_self
    obtain ⟨acc, k₁, runRest, accType, accReal, combined⟩ :=
      ih fun later member => fits later (List.mem_cons_of_mem o member)
    have common : (o.type.promote acc.type).isComplex = false := by
      rw [NumType.isComplex_promote, real, accReal]
      rfl
    obtain ⟨id, k₂, run, recorded⟩ := combine_records which (inside.mono combined.grows.continues)
      combined.inside common
    refine ⟨.value id (o.type.promote acc.type), k₂, ?_, ?_, common,
      recorded.after combined.grows ?_⟩
    · rw [List.foldrM_cons, StateT.run_bind, runRest]
      exact run
    · rw [accType]
      rfl
    · intro bound sound
      rw [inside.outcome_eq combined.grows.continues, combined.outcome bound sound]
      simp only [Plan.outcome, List.mapM_cons, bind_assoc, pure_bind, List.foldr_cons]

end Extremum

namespace Plan

variable {k : Kernel}

theorem integerAbs_records {o : ScalarOperand} (fits : (integerAbs o).Fits k) :
    Build.Records (integerAbs o).emit k o.type ((integerAbs o).outcome k) := by
  obtain ⟨inside, int⟩ := fits
  have real : o.type.isComplex = false := by
    cases type : o.type with
    | complex p =>
      rw [type] at int
      cases int
    | _ => rfl
  obtain ⟨value, k₁, runValue, operand⟩ := ScalarOperand.emit_records inside
  obtain ⟨zero, k₂, runZero, zeroed⟩ := Build.constant_records k₁ (.int 0) o.type
  have operand₂ := operand.keep zeroed.grows
  obtain ⟨negative, k₃, runCompare, compared⟩ :=
    Build.compare_records .lt operand₂.inside zeroed.inside real
  have operand₃ := operand₂.keep compared.grows
  obtain ⟨negated, k₄, runNeg, opposite⟩ := Build.neg_records operand₃.inside int
  have operand₄ := operand₃.keep opposite.grows
  have compared₄ := compared.keep opposite.grows
  obtain ⟨id, k₅, runSelect, selected⟩ :=
    Build.select_records compared₄.inside opposite.inside operand₄.inside
  refine ⟨id, k₅, ?_, selected.after operand₄.grows ?_⟩
  · simp [emit, runValue, runZero, runCompare, runNeg, runSelect]
  · intro bound sound
    have sound₁ := operand.grows.sound sound
    have sound₂ := zeroed.grows.sound sound₁
    have comparison := compared₄.demand_eq sound₂
    have value₄ := operand₄.demand_eq sound
    have negated₄ := opposite.demand_eq (compared.grows.sound sound₂)
    rw [operand₂.demand_eq sound, zeroed.demand_eq sound₁] at comparison
    rw [operand₃.demand_eq sound] at negated₄
    rw [comparison, outcome]
    have typed := inside.typed sound
    cases result : o.outcome k bound with
    | error e => rfl
    | ok v =>
      rw [result] at typed value₄ negated₄
      have integer : v.type.isInt = true := by rw [typed, int]
      obtain ⟨below, answer, magnitude⟩ := Value.magnitude?_of_isInt integer
      rw [typed] at answer
      cases below with
      | true =>
        obtain ⟨w, negation, _⟩ := Value.neg?_of_isInt integer
        simp [Predicate.apply, answer, magnitude, negated₄, Value.negate, negation]
      | false => simp [Predicate.apply, answer, magnitude, value₄]

theorem call_records {symbol : String} {args : List ScalarOperand} {argType resultType : NumType}
    (fits : (call symbol args argType resultType).Fits k) :
    Build.Records (call symbol args argType resultType).emit k resultType
      ((call symbol args argType resultType).outcome k) := by
  obtain ⟨r, accepted, exported, count, inside, rfl⟩ := fits
  obtain ⟨ids, k₁, runArgs, grows, length, types, values⟩ :=
    ScalarOperand.emitAs_mapM argType inside
  obtain ⟨id, k₂, runCall, called⟩ :=
    Build.call_records accepted exported (length.trans count) types
  refine ⟨id, k₂, ?_, called.after grows ?_⟩
  · rw [emit, StateT.run_bind, runArgs]
    exact runCall
  · intro bound sound
    rw [values bound sound]
    rfl

/-- A plan that fits is carried out without a violation. -/
theorem emit_records {plan : Plan} (fits : plan.Fits k) :
    Build.Records plan.emit k plan.type (plan.outcome k) := by
  cases plan with
  | cast operand t => exact ScalarOperand.emitAs_records fits t
  | length n =>
    obtain ⟨id, k', run, recorded⟩ := Build.constant_records k (.int n) .int64
    exact ⟨id, k', run, recorded⟩
  | extremum which earlier last =>
    obtain ⟨o, k₁, runFold, type, _, combined⟩ := Extremum.combineAll_records which fits
    obtain ⟨id, k₂, run, recorded⟩ := ScalarOperand.emit_records combined.inside
    rw [type] at recorded
    refine ⟨id, k₂, ?_, recorded.after combined.grows combined.outcome⟩
    rw [emit, StateT.run_bind, runFold]
    exact run
  | integerAbs operand => exact integerAbs_records fits
  | call symbol args argType resultType => exact call_records fits

end Plan

end ScalarLowering
