import ScalarLowering.Proofs.Kernel.Words
import ScalarLowering.Proofs.Lowering.Reachable

set_option autoImplicit false

/- The templates of calls. Only a plan for a routine records a call, and right
before it the template, so that a template is told by the place of its call. -/

namespace ScalarLowering

theorem Instruction.templateBefore_of_none {i : Instruction} (other : i.operation.template? = none)
    (position : Nat) : i.TemplateBefore position := by
  intro template found
  rw [other] at found
  cases found

namespace Kernel

/-- Every call has the value right before it for its template. -/
def TemplatesBefore (k : Kernel) : Prop :=
  ∀ id i, k.instruction? id = some i → i.TemplateBefore id.index

variable {k : Kernel}

theorem TemplatesBefore.push (before : k.TemplatesBefore) {i : Instruction}
    (last : i.TemplateBefore k.size) : (k.push i).TemplatesBefore := by
  intro id j recorded
  rcases instruction?_push_cases recorded with old | ⟨rfl, rfl⟩
  · exact before id j old
  · exact last

theorem TemplatesBefore.addParam (before : k.TemplatesBefore) (type : ValueType) :
    (k.addParam type).TemplatesBefore := by
  intro id i recorded
  rw [instruction?_addParam] at recorded
  exact before.push (Instruction.templateBefore_of_none rfl k.size) id i recorded

end Kernel

/-- If templates stand before their calls, they do so after the step. -/
def KeepsTemplates {α : Type} (m : Build α) : Prop :=
  ∀ ⦃k a k'⦄, m.run k = .ok (a, k') → k.TemplatesBefore → k'.TemplatesBefore

namespace KeepsTemplates

variable {α β : Type}

theorem pure (a : α) : KeepsTemplates (Pure.pure a) := by
  rintro k _ _ ⟨⟩ before
  exact before

theorem throw (violation : Violation) : KeepsTemplates (throw violation : Build α) := nofun

theorem get : KeepsTemplates get := by
  rintro k _ _ ⟨⟩ before
  exact before

theorem bind {m : Build α} {next : α → Build β} (first : KeepsTemplates m)
    (later : ∀ a, KeepsTemplates (next a)) : KeepsTemplates (m >>= next) := by
  intro k b k'' run before
  rw [StateT.run_bind] at run
  obtain ⟨⟨a, k'⟩, runFirst, runLater⟩ := bind_ok.mp run
  exact later a runLater (first runFirst before)

theorem mapM {step : α → Build β} (each : ∀ a, KeepsTemplates (step a)) (items : List α) :
    KeepsTemplates (items.mapM step) := by
  induction items with
  | nil => exact pure []
  | cons a rest ih =>
    rw [List.mapM_cons]
    exact (each a).bind fun _ => ih.bind fun _ => pure _

theorem foldrM {step : α → β → Build β} (each : ∀ a b, KeepsTemplates (step a b)) (b : β)
    (items : List α) : KeepsTemplates (items.foldrM step b) := by
  induction items with
  | nil => exact pure b
  | cons a rest ih =>
    rw [List.foldrM_cons]
    exact ih.bind fun acc => each a acc

theorem record {i : Instruction} (other : i.operation.template? = none) :
    KeepsTemplates (Build.record i) := by
  rintro k _ _ ⟨⟩ before
  exact before.push (Instruction.templateBefore_of_none other k.size)

theorem cast (source : ValueId) (t : NumType) : KeepsTemplates (Build.cast source t) := by
  refine get.bind fun k => ?_
  split
  · exact throw _
  · split
    · exact pure _
    · exact record rfl

theorem compare (predicate : Predicate) (lhs rhs : ValueId) :
    KeepsTemplates (Build.compare predicate lhs rhs) := by
  refine get.bind fun k => ?_
  split
  · exact record rfl
  · exact throw _

theorem typeOr (id : ValueId) (t : NumType) : KeepsTemplates (Build.typeOr id t) :=
  get.bind fun _ => pure _

theorem select (condition onTrue onFalse : ValueId) :
    KeepsTemplates (Build.select condition onTrue onFalse) :=
  (typeOr onTrue .bool).bind fun _ => record rfl

theorem neg (operand : ValueId) : KeepsTemplates (Build.neg operand) :=
  (typeOr operand .int64).bind fun _ => record rfl

/-- What a plan for a routine records last. -/
theorem call (symbol : String) (args : List ValueId) (t : NumType) :
    KeepsTemplates (do Build.call symbol args (← Build.constant (.int 0) t) false) := by
  intro k id k' run before
  let zero := Instruction.literal (.int 0) t
  have templates : (k.push zero).TemplatesBefore :=
    before.push (Instruction.templateBefore_of_none rfl k.size)
  obtain ⟨type, called⟩ : ∃ type, (Build.call symbol args ⟨k.size⟩ false).run (k.push zero) =
      .ok (⟨(k.push zero).size⟩, (k.push zero).push ⟨type, .call symbol args ⟨k.size⟩ false⟩) :=
    ⟨_, rfl⟩
  rw [StateT.run_bind, Build.constant_run, ok_bind, called] at run
  cases run
  apply templates.push
  rintro template ⟨⟩
  rw [Kernel.size_push]

theorem emitAs (o : ScalarOperand) (t : NumType) : KeepsTemplates (o.emitAs t) := by
  cases o with
  | literal l => exact record rfl
  | value id s => exact cast id t

theorem combine (which : Extremum) (lhs rhs : ScalarOperand) :
    KeepsTemplates (which.combine lhs rhs) :=
  (emitAs lhs _).bind fun _ => (emitAs rhs _).bind fun _ => (compare _ _ _).bind fun _ =>
    (select _ _ _).bind fun _ => pure _

theorem emit (plan : Plan) : KeepsTemplates plan.emit := by
  cases plan with
  | cast operand t => exact emitAs operand t
  | length n => exact record rfl
  | extremum which earlier last =>
    exact (foldrM (combine which) last earlier).bind fun o => emitAs o o.type
  | integerAbs operand =>
    exact (emitAs operand _).bind fun value => (record rfl).bind fun zero =>
      (compare .lt value zero).bind fun negative => (neg value).bind fun negated =>
        select negative negated value
  | call symbol args argType resultType =>
    exact (mapM (emitAs · argType) args).bind fun ids => call symbol ids resultType

theorem lower (h : Handler) (args : List Operand) : KeepsTemplates (h.lower args) := by
  refine get.bind fun k => ?_
  split
  · exact pure _
  · exact (emit _).bind fun _ => pure _

theorem lowerCall (r : Registry) (key : Key) (args : List Operand) :
    KeepsTemplates (r.lowerCall key args) := by
  unfold Registry.lowerCall
  split
  · exact pure _
  · exact (lower _ args).bind fun _ => pure _

end KeepsTemplates

theorem Kernel.Reachable.templatesBefore {k : Kernel} (reachable : k.Reachable) :
    k.TemplatesBefore := by
  apply reachable.invariant
  · intro id i recorded
    cases recorded
  · exact fun k type before => before.addParam type
  · exact fun lowered before => KeepsTemplates.lowerCall _ _ _ lowered before

end ScalarLowering
