import ScalarLowering.Proofs.Evaluation.Demand

set_option autoImplicit false

/- What the value of an identifier depends on: the instructions it leads to over
operands, and of what is bound only the parameters among these. -/

namespace ScalarLowering

namespace Instruction

/-- Of what is bound, an instruction reads the parameter it stands for. -/
theorem demand_congr_bound {bound other : Nat → Option Value} (id : ValueId) (i : Instruction)
    (agree : ∀ index, i.operation = .param index → bound index = other index)
    (value : ValueId → Except EvalError Value) :
    i.demand bound id value = i.demand other id value := by
  obtain ⟨type, operation⟩ := i
  cases operation with
  | param index => simp only [demand, boundValue, agree index rfl]
  | _ => rfl

end Instruction

namespace Kernel

/-- `id` leads to `other`: it is `other`, or one of its operands leads there. Both branches of a
choice count, whichever is taken. -/
inductive Refers (k : Kernel) : ValueId → ValueId → Prop
  | refl (id : ValueId) : Refers k id id
  | operand {id operand other : ValueId} {i : Instruction}
    (recorded : k.instruction? id = some i) (member : operand ∈ i.operation.operands)
    (rest : Refers k operand other) : Refers k id other

/-- `id` leads to the parameter with an index. -/
def Reads (k : Kernel) (id : ValueId) (index : Nat) : Prop :=
  ∃ param type, k.Refers id param ∧ k.instruction? param = some ⟨type, .param index⟩

variable {k : Kernel} {id operand other : ValueId} {i : Instruction} {index : Nat}

/-- Values whose operands are among them lead nowhere else. -/
theorem Refers.closed (values : ValueId → Prop)
    (operands : ∀ id i, values id → k.instruction? id = some i →
      ∀ operand ∈ i.operation.operands, values operand)
    (refers : k.Refers id other) (start : values id) : values other := by
  induction refers with
  | refl id => exact start
  | operand recorded member _ ih => exact ih (operands _ _ start recorded _ member)

theorem reads_of_param (recorded : k.instruction? id = some i)
    (param : i.operation = .param index) : k.Reads id index := by
  obtain ⟨type, operation⟩ := i
  subst param
  exact ⟨id, type, .refl id, recorded⟩

theorem Reads.of_operand (recorded : k.instruction? id = some i)
    (member : operand ∈ i.operation.operands) (reads : k.Reads operand index) :
    k.Reads id index := by
  obtain ⟨param, type, refers, known⟩ := reads
  exact ⟨param, type, .operand recorded member refers, known⟩

/-- What is bound to parameters that a value does not lead to does not matter to it. -/
theorem demand_congr_of_reads {bound other : Nat → Option Value} (k : Kernel) (id : ValueId)
    (agree : ∀ index, k.Reads id index → bound index = other index) :
    k.demand bound id = k.demand other id := by
  induction position : id.index using Nat.strongRecOn generalizing id with
  | ind position ih =>
    rw [demand, demand]
    cases recorded : k.instruction? id with
    | none => rfl
    | some i =>
      simp only
      rw [Instruction.demand_congr_bound id i fun index param =>
        agree index (reads_of_param recorded param)]
      apply Instruction.demand_congr
      intro operand member
      by_cases earlier : operand.index < id.index
      · rw [if_pos earlier, if_pos earlier]
        exact ih operand.index (position ▸ earlier) operand
          (fun index reads => agree index (.of_operand recorded member reads)) rfl
      · rw [if_neg earlier, if_neg earlier]

end Kernel

end ScalarLowering
