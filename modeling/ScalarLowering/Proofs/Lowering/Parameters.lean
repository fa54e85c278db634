import ScalarLowering.Proofs.Evaluation.Dependence
import ScalarLowering.Proofs.Lowering.Reachable

set_option autoImplicit false

/- The parameters of a kernel: they are numbered in the order in which they are
added, lowering a call adds none, and a value is told by the values that the
parameters of its kernel are bound to. -/

namespace ScalarLowering

def Operation.param? : Operation → Option Nat
  | .param index => some index
  | _ => none

theorem Operation.param?_eq_none {o : Operation} (notParam : ∀ index, o ≠ .param index) :
    o.param? = none := by
  cases o with
  | param index => exact absurd rfl (notParam index)
  | _ => rfl

namespace Kernel

variable {k k' k'' : Kernel}

/-- The indices of the parameters, in the order of the instructions. -/
def paramIndices (k : Kernel) : List Nat :=
  k.definitions.toList.filterMap (·.instruction.operation.param?)

/-- The parameters are numbered from zero, without a gap. -/
def Numbered (k : Kernel) : Prop := k.paramIndices = List.range k.paramCount

theorem Numbered.addParam (numbered : k.Numbered) (type : ValueType) :
    (k.addParam type).Numbered := by
  have last : (k.addParam type).paramIndices = k.paramIndices ++ [k.paramCount] := by
    simp [paramIndices, Kernel.addParam, Operation.param?]
  rw [Numbered, last, numbered]
  exact List.range_succ.symm

theorem Numbered.grow (numbered : k.Numbered) (grows : k.Grows k') : k'.Numbered := by
  obtain ⟨added, whole, noParams⟩ := grows.added
  have none : (definitionsFrom k.size added).filterMap (·.instruction.operation.param?) = [] := by
    apply List.filterMap_eq_nil_iff.mpr
    intro d member
    have listed := instruction_mem_of_definitionsFrom member
    exact Operation.param?_eq_none (noParams d.instruction listed)
  rw [Numbered, paramIndices, whole, List.filterMap_append, none, List.append_nil, grows.params]
  exact numbered

theorem Reachable.numbered (reachable : k.Reachable) : k.Numbered := by
  apply reachable.invariant
  · rfl
  · exact fun k type numbered => numbered.addParam type
  · exact fun lowered numbered => numbered.grow (Registry.lowerCall_grows lowered)

theorem Numbered.index_lt (numbered : k.Numbered) {id : ValueId} {type : ValueType} {index : Nat}
    (recorded : k.instruction? id = some ⟨type, .param index⟩) : index < k.paramCount := by
  obtain ⟨d, listed, same⟩ := Option.map_eq_some_iff.mp recorded
  have found : index ∈ k.paramIndices := by
    refine List.mem_filterMap.mpr ⟨d, Array.mem_toList_iff.mpr (Array.mem_of_getElem? listed), ?_⟩
    rw [same]
    rfl
  rw [numbered] at found
  exact List.mem_range.mp found

/-- `k'` is `k` with more parameters. -/
inductive AddsParams (k : Kernel) : Kernel → Prop
  | refl : AddsParams k k
  | add {k' : Kernel} (before : AddsParams k k') (type : ValueType) :
    AddsParams k (k'.addParam type)

namespace AddsParams

theorem trans (first : k.AddsParams k') (second : k'.AddsParams k'') : k.AddsParams k'' := by
  induction second with
  | refl => exact first
  | add before type ih => exact .add ih type

theorem continues (adds : k.AddsParams k') : k.Continues k' := by
  induction adds with
  | refl => exact .refl k
  | add before type ih => exact ih.trans (continues_addParam type)

theorem reachable (adds : k.AddsParams k') (reachable : k.Reachable) : k'.Reachable := by
  induction adds with
  | refl => exact reachable
  | add before type ih =>
    cases type with
    | scalar t => exact .param ih (Build.newParam_run (.scalar t) _)
    | array elem length => exact .arrayParam ih (Build.newParam_run (.array elem length) _)

end AddsParams

variable {bound other : Nat → Option Value}

/-- What is bound beyond the parameters of a kernel does not matter. -/
theorem Numbered.demand_congr_bound (numbered : k.Numbered)
    (agree : ∀ index < k.paramCount, bound index = other index) (id : ValueId) :
    k.demand bound id = k.demand other id := by
  apply demand_congr_of_reads
  rintro index ⟨param, type, _, recorded⟩
  exact agree index (numbered.index_lt recorded)

end Kernel

end ScalarLowering
