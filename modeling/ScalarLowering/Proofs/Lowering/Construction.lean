import ScalarLowering.Kernel.Text
import ScalarLowering.Proofs.OperandSpec.Numbering

set_option autoImplicit false

/- Kernels in the making: parameters are added one by one or with described
operands, and calls are lowered, also such that are declined. Every kernel that
comes of it is in single-assignment form and well typed throughout. -/

namespace ScalarLowering

namespace OperandSpec

/-- Operands bring their parameters along and nothing else. -/
theorem materializeAll_run (specs : List OperandSpec) (k : Kernel) :
    ∃ m k', (materializeAll specs).run k = .ok (m, k') ∧ k.AddsParams k' :=
  ⟨_, _, materializeAll_run_eq specs k, Kernel.addParams_addsParams (leavesAll specs)⟩

end OperandSpec

namespace Kernel

/-- A kernel in single-assignment form. -/
structure WellFormed (k : Kernel) : Prop where
  identified : k.Identified
  /-- Each line of the text defines the value whose identifier is its position. -/
  named : ∀ position, k.lines[position]? = (k.instruction? ⟨position⟩).map (·.line ⟨position⟩)
  numbered : k.Numbered
  /-- Operands stand before the instructions that use them and have the types these take. -/
  typed : k.WellTyped

theorem Identified.lines_getElem? {k : Kernel} (identified : k.Identified) (position : Nat) :
    k.lines[position]? = (k.instruction? ⟨position⟩).map (·.line ⟨position⟩) := by
  rw [lines, linesFrom, List.drop_zero, List.getElem?_map, Array.getElem?_toList, instruction?,
    Option.map_map]
  refine Option.map_congr fun d found => ?_
  rw [Definition.line, identified position d found, Function.comp_apply]

theorem Reachable.wellFormed {k : Kernel} (reachable : k.Reachable) : k.WellFormed where
  identified := reachable.identified
  named := reachable.identified.lines_getElem?
  numbered := reachable.numbered
  typed := reachable.wellTyped

end Kernel

namespace Construction

inductive Step where
  | param (t : NumType)
  | arrayParam (elem : NumType) (length : Option UInt64)
  /-- The parameters of described operands. -/
  | operands (specs : List OperandSpec)
  /-- A call, by whatever registry; it may be declined. -/
  | call (r : Registry) (key : Key) (args : List Operand)

def Step.carryOut : Step → Build Unit
  | .param t => do let _ ← Build.param t
  | .arrayParam elem length => do let _ ← Build.arrayParam elem length
  | .operands specs => do let _ ← OperandSpec.materializeAll specs
  | .call r key args => do let _ ← r.lowerCall key args

theorem Step.carryOut_reachable (step : Step) {k : Kernel} (reachable : k.Reachable) :
    ∃ k', step.carryOut.run k = .ok ((), k') ∧ k'.Reachable := by
  cases step with
  | param t =>
    exact ⟨k.addParam (.scalar t), rfl, .param reachable (Build.newParam_run (.scalar t) k)⟩
  | arrayParam elem length =>
    exact ⟨k.addParam (.array elem length), rfl,
      .arrayParam reachable (Build.newParam_run (.array elem length) k)⟩
  | operands specs =>
    obtain ⟨m, k', run, adds⟩ := OperandSpec.materializeAll_run specs k
    refine ⟨k', ?_, adds.reachable reachable⟩
    rw [carryOut, StateT.run_bind, run]
    rfl
  | call r key args =>
    obtain ⟨outcome, k', run⟩ : ∃ outcome k', (r.lowerCall key args).run k = .ok (outcome, k') := by
      rcases r.lowerCall_cases k key args with ⟨e, run⟩ | ⟨_, _, _, id, k', _, _, run, _⟩
      · exact ⟨_, k, run⟩
      · exact ⟨_, k', run⟩
    refine ⟨k', ?_, .call reachable run⟩
    rw [carryOut, StateT.run_bind, run]
    rfl

/-- Carries out steps one after another. -/
def build : List Step → Build Unit
  | [] => return ()
  | step :: rest => do
    step.carryOut
    build rest

theorem build_reachable (steps : List Step) {k : Kernel} (reachable : k.Reachable) :
    ∃ k', (build steps).run k = .ok ((), k') ∧ k'.Reachable := by
  induction steps generalizing k with
  | nil => exact ⟨k, rfl, reachable⟩
  | cons step rest ih =>
    obtain ⟨k₁, first, middle⟩ := step.carryOut_reachable reachable
    obtain ⟨k₂, later, final⟩ := ih middle
    refine ⟨k₂, ?_, final⟩
    rw [build, StateT.run_bind, first]
    exact later

/-- Whatever steps are taken from the empty kernel, all of them can be carried out, and the kernel
they lead to is well formed. -/
theorem build_wellFormed (steps : List Step) :
    ∃ k, (build steps).run .empty = .ok ((), k) ∧ k.WellFormed := by
  obtain ⟨k, run, reachable⟩ := build_reachable steps .empty
  exact ⟨k, run, reachable.wellFormed⟩

end Construction

end ScalarLowering
