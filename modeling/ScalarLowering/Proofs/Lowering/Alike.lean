import ScalarLowering.Proofs.Kernel.Renaming
import ScalarLowering.Proofs.Lowering.Emission

set_option autoImplicit false

/- Recording in two kernels side by side: what a plan records on values of one
kernel, it records on the values that these stand for in the other. -/

namespace ScalarLowering

/-- The value that the operand is, if it is one, has a property. -/
def ScalarOperand.Over (property : ValueId → Prop) : ScalarOperand → Prop
  | .literal _ => True
  | .value id _ => property id

namespace Renaming

variable {k k' : Kernel} (c : Renaming k k') {added later : List Instruction} {o : ScalarOperand}

/-- With the same instructions behind both kernels, the operand is a scalar that stands for one. -/
structure Shares (added : List Instruction) (o : ScalarOperand) : Prop where
  member : o.Over (c.extend added).values
  inside : o.In (k.append added)

variable {c}

theorem Shares.image (shared : c.Shares added o) : (o.rename c.extended).In (c.image added) := by
  obtain ⟨member, inside⟩ := shared
  cases o with
  | literal l => trivial
  | value id t => exact ((c.extend added).scalarType id member).trans inside

theorem Shares.mono (shared : c.Shares added o) (ahead : added <+: later) : c.Shares later o where
  member := by
    cases o with
    | literal l => trivial
    | value id t =>
      have longer := (Kernel.append_continues (k := k) ahead).size_le
      exact shared.member.imp_right fun new => ⟨new.1, Nat.lt_of_lt_of_le new.2 longer⟩
  inside := shared.inside.mono (Kernel.append_continues ahead)

end Renaming

namespace Build

variable {k k' : Kernel} {c : Renaming k k'} {added middle later : List Instruction}

section

variable {α β : Type} {m m' : Build α} {next next' : α → Build β} {a a' : α} {b b' : β}

/-- Run in the two kernels, the operations record the same and return the given results. -/
structure Together (c : Renaming k k') (added later : List Instruction) (m m' : Build α)
    (a a' : α) : Prop where
  ahead : added <+: later
  first : m.run (k.append added) = .ok (a, k.append later)
  second : m'.run (c.image added) = .ok (a', c.image later)

theorem Together.pure (a a' : α) :
    Together c added added (Pure.pure a) (Pure.pure a') a a' :=
  ⟨List.prefix_refl _, rfl, rfl⟩

theorem Together.bind (before : Together c added middle m m' a a')
    (after : Together c middle later (next a) (next' a') b b') :
    Together c added later (m >>= next) (m' >>= next') b b' where
  ahead := before.ahead.trans after.ahead
  first := by
    rw [StateT.run_bind, before.first]
    exact after.first
  second := by
    rw [StateT.run_bind, before.second]
    exact after.second

end

/-- Both operations return a scalar of type `t`, and one stands for the other. -/
def Alike (c : Renaming k k') (added : List Instruction) (m m' : Build ValueId) (t : NumType) :
    Prop :=
  ∃ later id, Together c added later m m' id (c.extended id) ∧ c.Shares later (.value id t)

variable {s t : NumType} {m m' : Build ValueId}

theorem Alike.of_record {i : Instruction} (scalar : i.type = .scalar t)
    (first : m.run (k.append added) = (record i).run (k.append added))
    (second : m'.run (c.image added) = (record (i.rename c.extended)).run (c.image added)) :
    Alike c added m m' t := by
  refine ⟨added ++ [i], ⟨(k.append added).size⟩, ⟨List.prefix_append _ _, ?_, ?_⟩, ?_, ?_⟩
  · rw [first, record_run, Kernel.append_push]
  · rw [second, record_run, c.image_push, c.extended_next]
  · refine Or.inr ⟨(Kernel.continues_append k added).size_le, ?_⟩
    rw [← Kernel.append_push, Kernel.size_push]
    exact Nat.lt_succ_self _
  · rw [← Kernel.append_push]
    exact Kernel.scalarType?_push scalar

theorem constant_alike (l : Literal) (t : NumType) :
    Alike c added (constant l t) (constant l t) t :=
  .of_record (i := .literal l t) rfl rfl rfl

theorem cast_alike {source : ValueId} (shared : c.Shares added (.value source s)) (t : NumType) :
    Alike c added (cast source t) (cast (c.extended source) t) t := by
  by_cases same : s = t
  · subst same
    exact ⟨added, source, ⟨List.prefix_refl _, cast_run_self shared.inside,
      cast_run_self shared.image⟩, shared⟩
  · exact .of_record rfl (cast_run shared.inside same) (cast_run shared.image same)

theorem compare_alike (predicate : Predicate) {lhs rhs : ValueId}
    (left : c.Shares added (.value lhs t)) (right : c.Shares added (.value rhs t)) :
    Alike c added (compare predicate lhs rhs)
      (compare predicate (c.extended lhs) (c.extended rhs)) .bool :=
  .of_record rfl (compare_run predicate left.inside right.inside)
    (compare_run predicate left.image right.image)

theorem select_alike (condition : ValueId) {onTrue : ValueId} (onFalse : ValueId)
    (left : c.Shares added (.value onTrue t)) :
    Alike c added (select condition onTrue onFalse)
      (select (c.extended condition) (c.extended onTrue) (c.extended onFalse)) t :=
  .of_record rfl (select_run condition onFalse left.inside) (select_run _ _ left.image)

theorem neg_alike {operand : ValueId} (shared : c.Shares added (.value operand t)) :
    Alike c added (neg operand) (neg (c.extended operand)) t :=
  .of_record rfl (neg_run shared.inside) (neg_run shared.image)

theorem call_alike (symbol : String) (args : List ValueId) {template : ValueId} (decorated : Bool)
    (shared : c.Shares added (.value template t)) :
    Alike c added (call symbol args template decorated)
      (call symbol (args.map c.extended) (c.extended template) decorated) t :=
  .of_record rfl (call_run symbol args decorated shared.inside)
    (call_run symbol _ decorated shared.image)

end Build

section

variable {k k' : Kernel} {c : Renaming k k'} {added : List Instruction}

open Build

namespace ScalarOperand

theorem emitAs_alike {o : ScalarOperand} (shared : c.Shares added o) (t : NumType) :
    Alike c added (o.emitAs t) ((o.rename c.extended).emitAs t) t := by
  cases o with
  | literal l => exact constant_alike l t
  | value id s => exact cast_alike shared t

theorem emit_alike {o : ScalarOperand} (shared : c.Shares added o) :
    Alike c added o.emit (o.rename c.extended).emit o.type := by
  rw [emit, emit, type_rename]
  exact emitAs_alike shared o.type

theorem emitAs_mapM_alike {operands : List ScalarOperand} (t : NumType)
    (shared : ∀ o ∈ operands, c.Shares added o) :
    ∃ later ids, Together c added later (operands.mapM (·.emitAs t))
      ((operands.map (·.rename c.extended)).mapM (·.emitAs t)) ids (ids.map c.extended) := by
  induction operands generalizing added with
  | nil => exact ⟨added, [], .pure [] []⟩
  | cons o rest ih =>
    obtain ⟨middle, id, first, _⟩ := emitAs_alike (shared o List.mem_cons_self) t
    obtain ⟨later, ids, others⟩ := ih fun other member =>
      (shared other (List.mem_cons_of_mem o member)).mono first.ahead
    refine ⟨later, id :: ids, ?_⟩
    rw [List.map_cons, List.mapM_cons, List.mapM_cons]
    exact first.bind (others.bind (.pure _ _))

end ScalarOperand

theorem Extremum.combine_alike (which : Extremum) {lhs rhs : ScalarOperand}
    (left : c.Shares added lhs) (right : c.Shares added rhs) :
    ∃ later o, Together c added later (which.combine lhs rhs)
      (which.combine (lhs.rename c.extended) (rhs.rename c.extended)) o (o.rename c.extended) ∧
      c.Shares later o := by
  rw [combine, combine, ScalarOperand.type_rename, ScalarOperand.type_rename]
  generalize lhs.type.promote rhs.type = t
  obtain ⟨added₁, a, emitLeft, sharedLeft⟩ := ScalarOperand.emitAs_alike left t
  obtain ⟨added₂, b, emitRight, sharedRight⟩ :=
    ScalarOperand.emitAs_alike (right.mono emitLeft.ahead) t
  have sharedLeft₂ := sharedLeft.mono emitRight.ahead
  obtain ⟨added₃, condition, compared, _⟩ :=
    compare_alike which.predicate sharedLeft₂ sharedRight
  obtain ⟨added₄, id, selected, shared⟩ :=
    select_alike condition b (sharedLeft₂.mono compared.ahead)
  exact ⟨added₄, .value id t,
    emitLeft.bind (emitRight.bind (compared.bind (selected.bind (.pure _ _)))), shared⟩

theorem Extremum.combineAll_alike (which : Extremum) {earlier : List ScalarOperand}
    {last : ScalarOperand} (shared : ∀ o ∈ earlier ++ [last], c.Shares added o) :
    ∃ later o, Together c added later (earlier.foldrM which.combine last)
      ((earlier.map (·.rename c.extended)).foldrM which.combine (last.rename c.extended))
      o (o.rename c.extended) ∧ c.Shares later o := by
  induction earlier with
  | nil => exact ⟨added, last, .pure _ _, shared last List.mem_cons_self⟩
  | cons o rest ih =>
    obtain ⟨middle, acc, runRest, sharedAcc⟩ :=
      ih fun later member => shared later (List.mem_cons_of_mem o member)
    obtain ⟨later, result, combined, sharedResult⟩ :=
      combine_alike which ((shared o List.mem_cons_self).mono runRest.ahead) sharedAcc
    refine ⟨later, result, ?_, sharedResult⟩
    rw [List.map_cons, List.foldrM_cons, List.foldrM_cons]
    exact runRest.bind combined

namespace Plan

/-- The plan on other values. -/
def rename (name : ValueId → ValueId) : Plan → Plan
  | .cast operand t => .cast (operand.rename name) t
  | .length n => .length n
  | .extremum which earlier last =>
    .extremum which (earlier.map (·.rename name)) (last.rename name)
  | .integerAbs operand => .integerAbs (operand.rename name)
  | .call symbol args argType resultType =>
    .call symbol (args.map (·.rename name)) argType resultType

def operands : Plan → List ScalarOperand
  | .cast operand _ | .integerAbs operand => [operand]
  | .length _ => []
  | .extremum _ earlier last => earlier ++ [last]
  | .call _ args _ _ => args

/-- The operands of a plan that fits are scalars. -/
theorem Fits.operands {plan : Plan} (fits : plan.Fits k) : ∀ o ∈ plan.operands, o.In k := by
  intro o member
  cases plan with
  | cast operand t =>
    obtain rfl := List.mem_singleton.mp member
    exact fits
  | length n => cases member
  | extremum which earlier last => exact (fits o member).1
  | integerAbs operand =>
    obtain rfl := List.mem_singleton.mp member
    exact fits.1
  | call symbol args argType resultType =>
    obtain ⟨_, _, _, _, inside, _⟩ := fits
    exact inside o member

theorem integerAbs_alike {o : ScalarOperand} (shared : c.Shares added o) :
    Alike c added (integerAbs o).emit (integerAbs (o.rename c.extended)).emit o.type := by
  rw [emit, emit, ScalarOperand.type_rename]
  obtain ⟨added₁, value, emitted, shared₁⟩ := ScalarOperand.emit_alike shared
  obtain ⟨added₂, zero, zeroed, sharedZero⟩ := constant_alike (c := c) (.int 0) o.type
  have shared₂ := shared₁.mono zeroed.ahead
  obtain ⟨added₃, negative, compared, _⟩ := compare_alike .lt shared₂ sharedZero
  have shared₃ := shared₂.mono compared.ahead
  obtain ⟨added₄, negated, opposite, sharedNegated⟩ := neg_alike shared₃
  obtain ⟨added₅, id, selected, sharedId⟩ := select_alike negative value sharedNegated
  exact ⟨added₅, id, emitted.bind (zeroed.bind (compared.bind (opposite.bind selected))), sharedId⟩

theorem call_alike {args : List ScalarOperand} (symbol : String) (argType resultType : NumType)
    (shared : ∀ o ∈ args, c.Shares added o) :
    Alike c added (call symbol args argType resultType).emit
      (call symbol (args.map (·.rename c.extended)) argType resultType).emit resultType := by
  obtain ⟨added₁, ids, emitted⟩ := ScalarOperand.emitAs_mapM_alike argType shared
  obtain ⟨added₂, template, zeroed, sharedZero⟩ := constant_alike (c := c) (.int 0) resultType
  obtain ⟨added₃, id, called, sharedId⟩ := Build.call_alike symbol ids false sharedZero
  exact ⟨added₃, id, emitted.bind (zeroed.bind called), sharedId⟩

/-- A plan is carried out alike on the values of one kernel and on those that they stand for. -/
theorem emit_alike {plan : Plan} (shared : ∀ o ∈ plan.operands, c.Shares added o) :
    ∃ t, Alike c added plan.emit (plan.rename c.extended).emit t := by
  cases plan with
  | cast operand t =>
    exact ⟨t, ScalarOperand.emitAs_alike (shared operand List.mem_cons_self) t⟩
  | length n => exact ⟨.int64, constant_alike (.int n) .int64⟩
  | extremum which earlier last =>
    obtain ⟨middle, o, combined, sharedResult⟩ := Extremum.combineAll_alike which shared
    obtain ⟨later, id, emitted, sharedId⟩ := ScalarOperand.emit_alike sharedResult
    exact ⟨o.type, later, id, combined.bind emitted, sharedId⟩
  | integerAbs operand =>
    exact ⟨operand.type, integerAbs_alike (shared operand List.mem_cons_self)⟩
  | call symbol args argType resultType =>
    exact ⟨resultType, call_alike symbol argType resultType shared⟩

end Plan

end

end ScalarLowering
