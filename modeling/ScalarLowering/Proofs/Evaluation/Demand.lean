import ScalarLowering.Kernel.Evaluation
import ScalarLowering.Proofs.Outcome

set_option autoImplicit false

/- The value of an identifier by recursion on positions, without a list of
pending values and without a memo. An instruction asks for the values of its
operands from left to right, and only for those that it needs; a value that has
no instruction, or none before the one that asks for it, is undefined. -/

namespace ScalarLowering

/-- The values an operation can ask for. The template of a call only lends its type. -/
def Operation.operands : Operation → List ValueId
  | .param _ | .const _ => []
  | .cast source => [source]
  | .compare _ lhs rhs => [lhs, rhs]
  | .select condition onTrue onFalse => [condition, onTrue, onFalse]
  | .neg operand => [operand]
  | .call _ args _ _ => args

/-- The type a value is computed at. The handle of an array stands for no value. -/
def ValueType.demanded (id : ValueId) : ValueType → Except EvalError NumType
  | .scalar t => .ok t
  | .array .. => .error (.notScalar id)

/-- The value of an instruction, where `value` answers for its operands. The recorded type is
looked at once all of them are known. -/
def Instruction.demand (bound : Nat → Option Value) (id : ValueId) (i : Instruction)
    (value : ValueId → Except EvalError Value) : Except EvalError Value :=
  match i.operation with
  | .param index => do boundValue bound index (← i.type.demanded id)
  | .const v => do
    let _ ← i.type.demanded id
    return v
  | .cast source => do
    let v ← value source
    return v.cast (← i.type.demanded id)
  | .compare predicate lhs rhs => do
    let a ← value lhs
    let b ← value rhs
    let _ ← i.type.demanded id
    predicate.apply a b
  | .select condition onTrue onFalse => do
    match ← value condition with
    | .bool b =>
      let v ← value (if b then onTrue else onFalse)
      let _ ← i.type.demanded id
      return v
    | _ => .error (.nonBoolCondition condition)
  | .neg operand => do
    let v ← value operand
    let _ ← i.type.demanded id
    v.negate
  | .call symbol args _ _ => do
    let vs ← args.mapM value
    MathRoutine.call symbol vs (← i.type.demanded id)

namespace Kernel

/-- The value of `id`, or the first error met on the way to it. -/
def demand (k : Kernel) (bound : Nat → Option Value) (id : ValueId) : Except EvalError Value :=
  match k.instruction? id with
  | none => .error (.undefinedValue id)
  | some i => i.demand bound id fun operand =>
    if operand.index < id.index then k.demand bound operand else .error (.undefinedValue operand)
termination_by id.index

/-- Operands stand before the instruction that uses them, or nowhere. -/
def Ordered (k : Kernel) : Prop :=
  ∀ id i, k.instruction? id = some i → ∀ operand ∈ i.operation.operands,
    operand.index < id.index ∨ k.instruction? operand = none

end Kernel

/-- Only the operands of an instruction matter to it. -/
theorem Instruction.demand_congr (bound : Nat → Option Value) (id : ValueId) (i : Instruction)
    {value other : ValueId → Except EvalError Value}
    (agree : ∀ operand ∈ i.operation.operands, value operand = other operand) :
    i.demand bound id value = i.demand bound id other := by
  obtain ⟨type, operation⟩ := i
  cases operation with
  | param index => rfl
  | const v => rfl
  | cast source =>
    have same := agree source (by simp [Operation.operands])
    simp only [Instruction.demand, same]
  | compare predicate lhs rhs =>
    have left := agree lhs (by simp [Operation.operands])
    have right := agree rhs (by simp [Operation.operands])
    simp only [Instruction.demand, left, right]
  | select condition onTrue onFalse =>
    have first := agree condition (by simp [Operation.operands])
    have taken : ∀ b : Bool, value (if b then onTrue else onFalse) =
        other (if b then onTrue else onFalse) := by
      intro b
      apply agree
      cases b <;> simp [Operation.operands]
    simp only [Instruction.demand, first, taken]
  | neg operand =>
    have same := agree operand (by simp [Operation.operands])
    simp only [Instruction.demand, same]
  | call symbol args template decorated =>
    have same := mapM_congr_of_mem agree
    simp only [Operation.operands] at same
    simp only [Instruction.demand, same]

namespace Kernel

theorem instruction?_of_definition {k : Kernel} {position : Nat} {d : Definition}
    (found : k.definitions[position]? = some d) :
    k.instruction? ⟨position⟩ = some d.instruction := by
  rw [instruction?, found, Option.map_some]

theorem index_lt_size {k : Kernel} {id : ValueId} {i : Instruction}
    (recorded : k.instruction? id = some i) : id.index < k.size := by
  obtain ⟨d, found, _⟩ := Option.map_eq_some_iff.mp recorded
  exact (Array.getElem?_eq_some_iff.mp found).1

theorem instruction?_eq_none_iff {k : Kernel} {id : ValueId} :
    k.instruction? id = none ↔ k.size ≤ id.index :=
  Option.map_eq_none_iff.trans Array.getElem?_eq_none_iff

theorem ordered_iff (k : Kernel) :
    k.Ordered ↔ ∀ position, ∀ inside : position < k.definitions.size,
      ∀ operand ∈ k.definitions[position].instruction.operation.operands,
        operand.index < position ∨ k.instruction? operand = none := by
  constructor
  · intro ordered position inside operand member
    have recorded := instruction?_of_definition (Array.getElem?_eq_getElem inside)
    exact ordered ⟨position⟩ _ recorded operand member
  · intro each id i recorded operand member
    obtain ⟨d, found, rfl⟩ := Option.map_eq_some_iff.mp recorded
    obtain ⟨inside, rfl⟩ := Array.getElem?_eq_some_iff.mp found
    exact each id.index inside operand member

instance (k : Kernel) : Decidable k.Ordered := decidable_of_iff' _ k.ordered_iff

theorem demand_of_none {k : Kernel} {id : ValueId} (bound : Nat → Option Value)
    (undefined : k.instruction? id = none) : k.demand bound id = .error (.undefinedValue id) := by
  rw [demand, undefined]

theorem demand_of_some {k : Kernel} {id : ValueId} {i : Instruction}
    (bound : Nat → Option Value) (recorded : k.instruction? id = some i)
    (earlier : ∀ operand ∈ i.operation.operands,
      operand.index < id.index ∨ k.instruction? operand = none) :
    k.demand bound id = i.demand bound id (k.demand bound) := by
  rw [demand, recorded]
  apply Instruction.demand_congr
  intro operand member
  by_cases before : operand.index < id.index
  · rw [if_pos before]
  · rw [if_neg before, demand_of_none bound ((earlier operand member).resolve_left before)]

/-- In an ordered kernel the guard on positions never answers in place of an instruction. -/
theorem Ordered.demand_eq {k : Kernel} (ordered : k.Ordered) (bound : Nat → Option Value)
    (id : ValueId) :
    k.demand bound id =
      match k.instruction? id with
      | none => .error (.undefinedValue id)
      | some i => i.demand bound id (k.demand bound) := by
  cases recorded : k.instruction? id with
  | none => exact demand_of_none bound recorded
  | some i => exact demand_of_some bound recorded (ordered id i recorded)

/-- A value depends on the instructions up to its own, so that later ones change nothing. -/
theorem demand_congr_of_prefix {k k' : Kernel} (bound : Nat → Option Value) (limit : Nat)
    (same : ∀ id : ValueId, id.index < limit → k.instruction? id = k'.instruction? id) :
    ∀ id : ValueId, id.index < limit → k.demand bound id = k'.demand bound id := by
  intro id
  induction position : id.index using Nat.strongRecOn generalizing id with
  | ind position ih =>
    intro before
    rw [demand, demand, same id (by omega)]
    cases k'.instruction? id with
    | none => rfl
    | some i =>
      apply Instruction.demand_congr
      intro operand _
      by_cases earlier : operand.index < id.index
      · rw [if_pos earlier, if_pos earlier]
        exact ih operand.index (by omega) operand rfl (by omega)
      · rw [if_neg earlier, if_neg earlier]

end Kernel

end ScalarLowering
