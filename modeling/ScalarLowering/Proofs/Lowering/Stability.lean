import Mathlib.Tactic.IntervalCases
import ScalarLowering.Proofs.Lowering.Construction

set_option autoImplicit false

/- What has been lowered is stable: the steps that follow leave the values of a
kernel as they are, and of what is bound a value depends on its own parameters. -/

namespace ScalarLowering

namespace Kernel

variable {k k' : Kernel} {bound other : Nat → Option Value} {id : ValueId}

theorem Reachable.eval?_of_continues (reachable : k.Reachable) (reachable' : k'.Reachable)
    (continues : k.Continues k') (bound : Nat → Option Value) (defined : id.index < k.size) :
    k'.eval? bound id = k.eval? bound id := by
  rw [reachable'.wellTyped.ordered.eval?_eq, reachable.wellTyped.ordered.eval?_eq,
    continues.demand_eq bound defined]

theorem Reachable.eval?_congr_of_reads (reachable : k.Reachable)
    (agree : ∀ index, k.Reads id index → bound index = other index) :
    k.eval? bound id = k.eval? other id := by
  rw [reachable.wellTyped.ordered.eval?_eq, reachable.wellTyped.ordered.eval?_eq,
    demand_congr_of_reads k id agree]

end Kernel

namespace Construction

variable {k k' : Kernel}

theorem Step.carryOut_continues {step : Step} (run : step.carryOut.run k = .ok ((), k')) :
    k.Continues k' := by
  cases step with
  | param t =>
    cases run
    exact Kernel.continues_addParam (.scalar t)
  | arrayParam elem length =>
    cases run
    exact Kernel.continues_addParam (.array elem length)
  | operands specs =>
    obtain ⟨m, grown, materialized, adds⟩ := OperandSpec.materializeAll_run specs k
    rw [carryOut, StateT.run_bind, materialized] at run
    cases run
    exact adds.continues
  | call r key args =>
    rw [carryOut, StateT.run_bind] at run
    obtain ⟨⟨outcome, grown⟩, lowered, run⟩ := bind_ok.mp run
    cases run
    exact (Registry.lowerCall_grows lowered).continues

/-- Steps only ever add instructions behind those that are there. -/
theorem build_continues {steps : List Step} (run : (build steps).run k = .ok ((), k')) :
    k.Continues k' := by
  induction steps generalizing k with
  | nil =>
    cases run
    exact .refl _
  | cons step rest ih =>
    rw [build, StateT.run_bind] at run
    obtain ⟨⟨_, middle⟩, first, later⟩ := bind_ok.mp run
    exact (Step.carryOut_continues first).trans (ih later)

/-- Whatever steps follow those that have led to a kernel, its values stay what they are under any
binding, and they stay so under any other binding of the parameters that they do not lead to. -/
theorem build_stable (steps later : List Step) :
    ∃ k k', (build steps).run .empty = .ok ((), k) ∧ (build later).run k = .ok ((), k') ∧
      ∀ (id : ValueId) (bound : Nat → Option Value), id.index < k.size →
        ∃ outcome, k.eval? bound id = some outcome ∧ k'.eval? bound id = some outcome ∧
          ∀ other : Nat → Option Value, (∀ index, k.Reads id index → bound index = other index) →
            k.eval? other id = some outcome ∧ k'.eval? other id = some outcome := by
  obtain ⟨k, run, reachable⟩ := build_reachable steps .empty
  obtain ⟨k', runLater, reachable'⟩ := build_reachable later reachable
  have continues := build_continues runLater
  refine ⟨k, k', run, runLater, ?_⟩
  intro id bound defined
  have kept : ∀ bound, k'.eval? bound id = k.eval? bound id := fun bound =>
    reachable.eval?_of_continues reachable' continues bound defined
  have outcome := reachable.wellTyped.ordered.eval?_eq bound id
  refine ⟨k.demand bound id, outcome, (kept bound).trans outcome, ?_⟩
  intro other agree
  have unread := (reachable.eval?_congr_of_reads agree).symm.trans outcome
  exact ⟨unread, (kept other).trans unread⟩

/-- The absolute value of the first of two parameters. -/
def absoluteOfFirst : List Step :=
  [.param .int64, .param .float64, .call .standard (.name "abs") [.value ⟨0⟩]]

theorem absoluteOfFirst_stable :
    ∃ k k', (build absoluteOfFirst).run .empty = .ok ((), k) ∧
      (build [.call .standard (.name "abs") [.value ⟨1⟩], .param .bool]).run k = .ok ((), k') ∧
      k'.eval? (fun index => if index = 1 then none else some (.int .signed .w64 (-3))) ⟨5⟩ =
        some (.ok (.int .signed .w64 3)) := by
  obtain ⟨k, k', run, later, stable⟩ := build_stable absoluteOfFirst
    [.call .standard (.name "abs") [.value ⟨1⟩], .param .bool]
  refine ⟨k, k', run, later, ?_⟩
  have built : k.definitions =
      #[⟨⟨0⟩, .scalar .int64, .param 0⟩, ⟨⟨1⟩, .scalar .float64, .param 1⟩,
        ⟨⟨2⟩, .scalar .int64, .const (.int .signed .w64 0)⟩,
        ⟨⟨3⟩, .scalar .bool, .compare .lt ⟨0⟩ ⟨2⟩⟩, ⟨⟨4⟩, .scalar .int64, .neg ⟨0⟩⟩,
        ⟨⟨5⟩, .scalar .int64, .select ⟨3⟩ ⟨4⟩ ⟨0⟩⟩] := by
    cases run
    rfl
  have value : k.eval? (fun _ => some (.int .signed .w64 (-3))) ⟨5⟩ =
      some (.ok (.int .signed .w64 3)) := by
    cases run
    rfl
  have defined : 5 < k.size := by
    rw [Kernel.size, built]
    decide
  obtain ⟨outcome, known, _, unread⟩ := stable ⟨5⟩ (fun _ => some (.int .signed .w64 (-3))) defined
  cases known.symm.trans value
  refine (unread _ ?_).2
  -- No operand is the second parameter, and it is the only one with its index.
  rintro index ⟨param, type, refers, recorded⟩
  have operands : ∀ d ∈ k.definitions, ∀ operand ∈ d.instruction.operation.operands,
      operand ≠ ⟨1⟩ := by
    rw [built]
    decide
  have apart : param ≠ ⟨1⟩ := by
    refine refers.closed (· ≠ ⟨1⟩) (fun _ i _ recorded => ?_) (by decide)
    obtain ⟨d, listed, rfl⟩ := Option.map_eq_some_iff.mp recorded
    exact operands d (Array.mem_of_getElem? listed)
  have inside : param.index < 6 := by
    have listed := Kernel.index_lt_size recorded
    rwa [Kernel.size, built] at listed
  obtain ⟨position⟩ := param
  rw [Kernel.instruction?, built] at recorded
  interval_cases position
  · cases recorded
    rfl
  · exact absurd rfl apart
  all_goals cases recorded

end Construction

end ScalarLowering
