import ScalarLowering.Proofs.Lowering.BoundLiterals
import ScalarLowering.Proofs.Lowering.RenamedPlan
import ScalarLowering.Proofs.Lowering.Program
import ScalarLowering.Proofs.Lowering.Stability

set_option autoImplicit false

/- Lowering does not depend on its context: what else a kernel holds decides neither
whether a call is accepted nor what is recorded for it. -/

namespace ScalarLowering

namespace Renaming

variable {k k' : Kernel} (c : Renaming k k') {args : List Operand}

theorem resembles {id : ValueId} (value : c.values id) : k.Resembles k' c.extended id := by
  rw [Kernel.Resembles, c.extended_of_values value]
  exact ⟨c.scalarType id value, c.length id value⟩

theorem plan_extended (h : Handler) (covered : Operand.OverAll c.values args) :
    h.plan k' (Operand.renameAll c.name args) =
      (·.rename c.extended) <$> h.plan k args := by
  have same := Operand.renameAll_congr (covered.mono fun _ => c.extended_of_values)
  rw [← same, Operand.renameAll_eq_map]
  exact h.plan_rename (Operand.overAll_iff.mp (covered.mono fun _ => c.resembles))

/-- The same handler on the same operands, up to a renaming, declines them for the same reason or
records the same instructions, up to the renaming. -/
theorem lower_renamed (h : Handler) (covered : Operand.OverAll c.values args) :
    (∃ reason, (h.lower args).run k = .ok (.error reason, k) ∧
      (h.lower (Operand.renameAll c.name args)).run k' = .ok (.error reason, k')) ∨
    ∃ added id, (h.lower args).run k = .ok (.ok id, k.append added) ∧
      (h.lower (Operand.renameAll c.name args)).run k' =
        .ok (.ok (c.extended id), c.image added) ∧
      (c.extend added).values id := by
  -- Both kernels plan alike, so that one plan is carried out in both or in neither.
  have planned' := c.plan_extended h covered
  cases planned : h.plan k args with
  | error reason =>
    rw [planned] at planned'
    exact Or.inl ⟨reason, Handler.lower_of_error planned, Handler.lower_of_error planned'⟩
  | ok plan =>
    rw [planned] at planned'
    have accepts := Handler.accepts_of_plan planned
    have shared : ∀ o ∈ plan.operands, c.Shares [] o := by
      intro o member
      refine ⟨?_, ?_⟩
      · have listed := accepts.operands_over covered o member
        cases o with
        | literal l => trivial
        | value id t => exact Or.inl listed
      · rw [Kernel.append_nil]
        exact accepts.fits.operands o member
    obtain ⟨t, added, id, ⟨_, first, second⟩, result⟩ := Plan.emit_alike shared
    rw [Kernel.append_nil] at first
    rw [image, List.map_nil, Kernel.append_nil] at second
    refine Or.inr ⟨added, id, ?_, ?_, result.member⟩
    · rw [Handler.lower_of_ok planned, first]
      rfl
    · rw [Handler.lower_of_ok planned', second]
      rfl

end Renaming

section

variable {k k' l : Kernel} {args : List Operand} {id : ValueId}

namespace Operand

theorem shape_of_continues (continues : k.Continues k') {o : Operand}
    (defined : o.Over fun id => id.index < k.size) : o.shape k' = o.shape k := by
  cases o with
  | literal l => rfl
  | tuple items => rfl
  | value id => rw [shape, shape, continues.typeOf?_eq defined]

theorem meaning_of_continues (continues : k.Continues k') (bound : Nat → Option Value)
    {o : Operand} (defined : o.Over fun id => id.index < k.size) :
    o.meaning k' bound = o.meaning k bound := by
  cases o with
  | literal l => rfl
  | tuple items => rfl
  | value id => exact meaning_value_eq continues bound defined

end Operand

/-- A call that a kernel accepts is accepted by all that continue it, with the same value. -/
theorem Handler.lower_of_continues {h : Handler} (typed : k.WellTyped) (typed' : k'.WellTyped)
    (continues : k.Continues k') (defined : Operand.OverAll (·.index < k.size) args)
    (lowered : (h.lower args).run k = .ok (.ok id, l)) :
    ∃ id' l', (h.lower args).run k' = .ok (.ok id', l') ∧
      ∀ bound, l'.eval? bound id' = l.eval? bound id := by
  -- Acceptance is told by the shapes of the operands and the value by their meanings.
  have each := Operand.overAll_iff.mp defined
  have shapes : args.map (·.shape k') = args.map (·.shape k) :=
    List.map_congr_left fun o member => Operand.shape_of_continues continues (each o member)
  obtain ⟨t, signature, _⟩ := signature_of_lower lowered
  rw [← shapes] at signature
  obtain ⟨_, id', l', _, lowered', _⟩ := lower_of_signature signature
  refine ⟨id', l', lowered', fun bound => ?_⟩
  have meanings : args.map (·.meaning k' bound) = args.map (·.meaning k bound) :=
    List.map_congr_left fun o member =>
      Operand.meaning_of_continues continues bound (each o member)
  rw [eval?_of_lower typed' lowered' bound, eval?_of_lower typed lowered bound, meanings]

/-- A call that a kernel accepts is accepted by all that continue it, with the same value. -/
theorem Registry.lowerCall_of_continues {r : Registry} {key : Key} (reachable : k.Reachable)
    (reachable' : k'.Reachable) (continues : k.Continues k')
    (defined : Operand.OverAll (·.index < k.size) args)
    (lowered : (r.lowerCall key args).run k = .ok (.ok id, l)) :
    ∃ id' l', (r.lowerCall key args).run k' = .ok (.ok id', l') ∧
      ∀ bound, l'.eval? bound id' = l.eval? bound id := by
  obtain ⟨name, h, resolved, lowered⟩ := lowerCall_ok_iff.mp lowered
  obtain ⟨id', l', lowered', values⟩ :=
    Handler.lower_of_continues reachable.wellTyped reachable'.wellTyped continues defined lowered
  exact ⟨id', l', lowerCall_ok_iff.mpr ⟨name, h, resolved, lowered'⟩, values⟩

end

/-- Two calls can be lowered in either order. -/
theorem Kernel.Reachable.lowerCall_comm {k l m : Kernel} (reachable : k.Reachable)
    {r s : Registry} {key other : Key} {args others : List Operand} {a b : ValueId}
    (defined : Operand.OverAll (·.index < k.size) args)
    (defined' : Operand.OverAll (·.index < k.size) others)
    (first : (r.lowerCall key args).run k = .ok (.ok a, l))
    (second : (s.lowerCall other others).run k = .ok (.ok b, m)) :
    ∃ a' b' l' m', (s.lowerCall other others).run l = .ok (.ok b', l') ∧
      (r.lowerCall key args).run m = .ok (.ok a', m') ∧
      ∀ bound, l'.eval? bound a = m'.eval? bound a' ∧ l'.eval? bound b' = m'.eval? bound b := by
  have afterFirst := reachable.call first
  have afterSecond := reachable.call second
  obtain ⟨b', l', later, sameSecond⟩ := Registry.lowerCall_of_continues reachable afterFirst
    (Registry.lowerCall_grows first).continues defined' second
  obtain ⟨a', m', later', sameFirst⟩ := Registry.lowerCall_of_continues reachable afterSecond
    (Registry.lowerCall_grows second).continues defined first
  obtain ⟨_, scalarFirst⟩ := Registry.lowerCall_scalar first
  obtain ⟨_, scalarSecond⟩ := Registry.lowerCall_scalar second
  refine ⟨a', b', l', m', later, later', fun bound => ⟨?_, ?_⟩⟩
  · rw [sameFirst bound]
    exact afterFirst.eval?_of_continues (afterFirst.call later)
      (Registry.lowerCall_grows later).continues bound (index_lt_of_scalarType? scalarFirst)
  · rw [sameSecond bound]
    exact (afterSecond.eval?_of_continues (afterSecond.call later')
      (Registry.lowerCall_grows later').continues bound (index_lt_of_scalarType? scalarSecond)).symm

namespace Handler

/-- Lowering is independent of the context. In two kernels, the same operands up to a renaming are
declined for the same reason, or the same instructions are recorded for them, up to the renaming
extended to the new values; and calls on values of a kernel have the same values in either order. -/
theorem lower_independent :
    (∀ (h : Handler) (k k' : Kernel) (c : Renaming k k') (args : List Operand),
      Operand.OverAll c.values args →
        (∃ reason, (h.lower args).run k = .ok (.error reason, k) ∧
          (h.lower (Operand.renameAll c.name args)).run k' = .ok (.error reason, k')) ∨
        ∃ added id, (h.lower args).run k = .ok (.ok id, k.append added) ∧
          (h.lower (Operand.renameAll c.name args)).run k' =
            .ok (.ok (c.extended id), k'.append (added.map (·.rename c.extended))) ∧
          (c.extend added).values id) ∧
      ∀ (k l m : Kernel) (r s : Registry) (key other : Key) (args others : List Operand)
        (a b : ValueId), k.Reachable →
        Operand.OverAll (·.index < k.size) args → Operand.OverAll (·.index < k.size) others →
        (r.lowerCall key args).run k = .ok (.ok a, l) →
        (s.lowerCall other others).run k = .ok (.ok b, m) →
        ∃ a' b' l' m', (s.lowerCall other others).run l = .ok (.ok b', l') ∧
          (r.lowerCall key args).run m = .ok (.ok a', m') ∧
          ∀ bound, l'.eval? bound a = m'.eval? bound a' ∧ l'.eval? bound b' = m'.eval? bound b :=
  ⟨fun h _ _ c _ covered => c.lower_renamed h covered,
    fun _ _ _ _ _ _ _ _ _ _ _ reachable defined defined' first second =>
      reachable.lowerCall_comm defined defined' first second⟩

/-- A kernel with a parameter, and one with another parameter before it. -/
def oneParam : Kernel := Kernel.empty.addParam (.scalar .int64)

def twoParams : Kernel := (Kernel.empty.addParam (.scalar .float64)).addParam (.scalar .int64)

def secondParam : Renaming oneParam twoParams where
  values := (· = ⟨0⟩)
  name := fun _ => ⟨1⟩
  defined := by
    rintro _ rfl
    decide
  named := by
    rintro _ rfl
    decide
  scalarType := by
    rintro _ rfl
    rfl
  length := by
    rintro _ rfl
    rfl
  injective := by
    rintro _ _ rfl rfl _
    rfl

def withThree (id : ValueId) : List Operand := [.value id, .literal (.int 3)]

/-- The lesser of the parameter and three in either kernel, and next to the absolute value of the
parameter. -/
theorem lesser_independent :
    (∃ added,
      ((extremum .min).lower (withThree ⟨0⟩)).run oneParam = .ok (.ok ⟨3⟩, oneParam.append added) ∧
      ((extremum .min).lower (withThree ⟨1⟩)).run twoParams =
        .ok (.ok ⟨4⟩, twoParams.append (added.map (·.rename secondParam.extended)))) ∧
    ∃ l m a' b' l' m',
      (Registry.standard.lowerCall (.name "min") (withThree ⟨0⟩)).run oneParam =
        .ok (.ok ⟨3⟩, l) ∧
      (Registry.standard.lowerCall (.name "abs") [.value ⟨0⟩]).run oneParam = .ok (.ok ⟨4⟩, m) ∧
      (Registry.standard.lowerCall (.name "abs") [.value ⟨0⟩]).run l = .ok (.ok b', l') ∧
      (Registry.standard.lowerCall (.name "min") (withThree ⟨0⟩)).run m = .ok (.ok a', m') ∧
      ∀ bound, l'.eval? bound ⟨3⟩ = m'.eval? bound a' ∧
        l'.eval? bound b' = m'.eval? bound ⟨4⟩ := by
  constructor
  · have lowered : ∃ l, ((extremum .min).lower (withThree ⟨0⟩)).run oneParam = .ok (.ok ⟨3⟩, l) :=
      ⟨_, rfl⟩
    obtain ⟨l, lowered⟩ := lowered
    have covered : Operand.OverAll secondParam.values (withThree ⟨0⟩) := ⟨rfl, trivial, trivial⟩
    rcases lower_independent.1 (extremum .min) _ _ secondParam _ covered with
      ⟨reason, declined, _⟩ | ⟨added, id, first, second, _⟩
    · cases lowered.symm.trans declined
    · cases lowered.symm.trans first
      exact ⟨added, first, second⟩
  · have reachable : oneParam.Reachable :=
      .param .empty (Build.newParam_run (.scalar .int64) .empty)
    have lesser : ∃ l, (Registry.standard.lowerCall (.name "min") (withThree ⟨0⟩)).run oneParam =
        .ok (.ok ⟨3⟩, l) := ⟨_, rfl⟩
    have magnitude : ∃ m, (Registry.standard.lowerCall (.name "abs") [.value ⟨0⟩]).run oneParam =
        .ok (.ok ⟨4⟩, m) := ⟨_, rfl⟩
    have definedLesser : Operand.OverAll (·.index < oneParam.size) (withThree ⟨0⟩) :=
      ⟨Nat.zero_lt_one, trivial, trivial⟩
    have definedMagnitude : Operand.OverAll (·.index < oneParam.size) [.value ⟨0⟩] :=
      ⟨Nat.zero_lt_one, trivial⟩
    obtain ⟨l, lesser⟩ := lesser
    obtain ⟨m, magnitude⟩ := magnitude
    obtain ⟨a', b', l', m', later, later', values⟩ := lower_independent.2 _ l m _ _ _ _ _ _ _ _
      reachable definedLesser definedMagnitude lesser magnitude
    exact ⟨l, m, a', b', l', m', lesser, magnitude, later, later', values⟩

end Handler

end ScalarLowering
