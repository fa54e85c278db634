import Mathlib.Data.List.Induction
import Mathlib.Logic.Relation
import ScalarLowering.Proofs.Evaluation.Demand

set_option autoImplicit false

/- Which values an evaluation asks for, in kernels whose references may point
anywhere. An instruction asks for its operands one after the other, for the next
one once values have come of those before, and of a choice for the condition and
then for one branch. Something comes of a value once it has come of all that the
value asks for, which leaves out a value that needs itself. -/

namespace ScalarLowering

/-- The operation asks for an operand, where `came` says which values have come of the others. -/
inductive Operation.Asks (came : ValueId → Value → Prop) : Operation → ValueId → Prop
  | cast (source : ValueId) : Asks came (.cast source) source
  | left (predicate : Predicate) (lhs rhs : ValueId) : Asks came (.compare predicate lhs rhs) lhs
  | right {predicate : Predicate} {lhs rhs : ValueId} {v : Value} (before : came lhs v) :
    Asks came (.compare predicate lhs rhs) rhs
  | condition (condition onTrue onFalse : ValueId) :
    Asks came (.select condition onTrue onFalse) condition
  | branch {condition onTrue onFalse : ValueId} {b : Bool} (chosen : came condition (.bool b)) :
    Asks came (.select condition onTrue onFalse) (if b then onTrue else onFalse)
  | neg (operand : ValueId) : Asks came (.neg operand) operand
  | arg {symbol : String} {earlier later : List ValueId} {arg template : ValueId}
    {decorated : Bool} (before : ∀ id ∈ earlier, ∃ v, came id v) :
    Asks came (.call symbol (earlier ++ arg :: later) template decorated) arg

namespace Operation

variable {came other : ValueId → Value → Prop} {operation : Operation} {operand : ValueId}

theorem Asks.mem_operands (asks : operation.Asks came operand) : operand ∈ operation.operands := by
  cases asks with
  | @branch condition onTrue onFalse b => cases b <;> simp [operands]
  | _ => simp [operands]

/-- From the first operand on, the same operands are asked for if the same values come of them. -/
theorem Asks.agree (asks : operation.Asks came operand)
    (same : ∀ id v, operation.Asks came id → operation.Asks other id → came id v → other id v) :
    operation.Asks other operand := by
  cases asks with
  | cast => exact .cast operand
  | left predicate lhs rhs => exact .left predicate operand rhs
  | @right predicate lhs rhs v before =>
    exact .right (same lhs v (.left predicate lhs operand) (.left predicate lhs operand) before)
  | condition condition onTrue onFalse => exact .condition operand onTrue onFalse
  | @branch condition onTrue onFalse b chosen =>
    exact .branch (same condition (.bool b) (.condition condition onTrue onFalse)
      (.condition condition onTrue onFalse) chosen)
  | neg => exact .neg operand
  | @arg symbol earlier later arg template decorated before =>
    refine .arg ?_
    -- The arguments come from left to right, so that each of them is asked for in both cases.
    induction earlier using List.reverseRecOn generalizing operand later with
    | nil => exact fun id member => absurd member List.not_mem_nil
    | append_singleton earlier last ih =>
      obtain ⟨before, atLast⟩ := List.forall_mem_append.mp before
      obtain ⟨v, value⟩ := List.forall_mem_singleton.mp atLast
      rw [List.append_assoc, List.singleton_append] at same
      have known := ih before same
      exact List.forall_mem_append.mpr ⟨known,
        List.forall_mem_singleton.mpr ⟨v, same last v (.arg before) (.arg known) value⟩⟩

end Operation

namespace Instruction

variable {value other : ValueId → Except EvalError Value}

/-- Only the operands that are asked for matter to an instruction. -/
theorem demand_congr_of_asks (bound : Nat → Option Value) (id : ValueId) (i : Instruction)
    (agree : ∀ operand, i.operation.Asks (fun id v => value id = .ok v) operand →
      value operand = other operand) :
    i.demand bound id value = i.demand bound id other := by
  obtain ⟨type, operation⟩ := i
  cases operation with
  | param index => rfl
  | const v => rfl
  | cast source => simp only [demand, agree source (.cast source)]
  | neg operand => simp only [demand, agree operand (.neg operand)]
  | compare predicate lhs rhs =>
    have left := agree lhs (.left predicate lhs rhs)
    cases result : value lhs with
    | error e => simp only [demand, ← left, result, error_bind]
    | ok v => simp only [demand, ← left, agree rhs (.right result)]
  | select condition onTrue onFalse =>
    have first := agree condition (.condition condition onTrue onFalse)
    cases result : value condition with
    | error e => simp only [demand, ← first, result, error_bind]
    | ok v =>
      cases v with
      | bool b => simp only [demand, ← first, result, ok_bind, agree _ (.branch result)]
      | _ => simp only [demand, ← first, result, ok_bind]
  | call symbol args template decorated =>
    have same (earlier later : List ValueId) (split : earlier ++ later = args)
        (before : ∀ id ∈ earlier, ∃ v, value id = .ok v) :
        later.mapM value = later.mapM other := by
      induction later generalizing earlier with
      | nil => rfl
      | cons arg later ih =>
        subst split
        have first := agree arg (.arg before)
        cases result : value arg with
        | error e => simp only [List.mapM_cons, ← first, result, error_bind]
        | ok v =>
          have rest := ih (earlier ++ [arg]) (by simp)
            (List.forall_mem_append.mpr ⟨before, List.forall_mem_singleton.mpr ⟨v, result⟩⟩)
          rw [List.mapM_cons, List.mapM_cons, ← first, rest]
    have none : ∀ id ∈ ([] : List ValueId), ∃ v, value id = .ok v :=
      fun id member => absurd member List.not_mem_nil
    simp only [demand, same [] args rfl none]

/-- An instruction fails as an operand that it asks for. -/
theorem demand_error_of_asks (bound : Nat → Option Value) (id : ValueId) (i : Instruction)
    {operand : ValueId} {e : EvalError}
    (asks : i.operation.Asks (fun id v => value id = .ok v) operand)
    (failed : value operand = .error e) : i.demand bound id value = .error e := by
  obtain ⟨type, operation⟩ := i
  cases asks with
  | cast => simp only [demand, failed, error_bind]
  | left predicate lhs rhs => simp only [demand, failed, error_bind]
  | right before => simp only [demand, before, failed, ok_bind, error_bind]
  | condition condition onTrue onFalse => simp only [demand, failed, error_bind]
  | branch chosen => simp only [demand, chosen, failed, ok_bind, error_bind]
  | neg => simp only [demand, failed, error_bind]
  | arg before => simp only [demand, mapM_error_of_first before failed, error_bind]

end Instruction

namespace Kernel

/-- What comes of a value, if anything does. -/
inductive Comes (k : Kernel) (bound : Nat → Option Value) : ValueId → Except EvalError Value → Prop
  | undefined {id : ValueId} (absent : k.instruction? id = none) :
    Comes k bound id (.error (.undefinedValue id))
  | recorded {id : ValueId} {i : Instruction} {value : ValueId → Except EvalError Value}
    (recorded : k.instruction? id = some i)
    (asked : ∀ operand, i.operation.Asks (fun id v => value id = .ok v) operand →
      Comes k bound operand (value operand)) :
    Comes k bound id (i.demand bound id value)

/-- A value comes of `id`, and not an error. -/
def Came (k : Kernel) (bound : Nat → Option Value) (id : ValueId) (v : Value) : Prop :=
  k.Comes bound id (.ok v)

/-- The value `id` asks for another one. -/
def Needs (k : Kernel) (came : ValueId → Value → Prop) (id operand : ValueId) : Prop :=
  ∃ i, k.instruction? id = some i ∧ i.operation.Asks came operand

/-- `id` leads to a value that asks for itself in the end. -/
def Circular (k : Kernel) (came : ValueId → Value → Prop) (id : ValueId) : Prop :=
  ∃ other, Relation.ReflTransGen (k.Needs came) id other ∧
    Relation.TransGen (k.Needs came) other other

variable {k : Kernel} {bound : Nat → Option Value} {id operand : ValueId}
variable {r r' : Except EvalError Value} {came : ValueId → Value → Prop}

/-- In an ordered kernel, something comes of every value. -/
theorem Ordered.comes (ordered : k.Ordered) (bound : Nat → Option Value) (id : ValueId) :
    k.Comes bound id (k.demand bound id) := by
  induction position : id.index using Nat.strongRecOn generalizing id with
  | ind position ih =>
    rw [ordered.demand_eq bound id]
    cases recorded : k.instruction? id with
    | none => exact .undefined recorded
    | some i =>
      refine .recorded recorded ?_
      intro operand asks
      rcases ordered id i recorded operand asks.mem_operands with earlier | absent
      · exact ih operand.index (position ▸ earlier) operand rfl
      · rw [demand_of_none bound absent]
        exact .undefined absent

theorem Comes.unique (comes : k.Comes bound id r) (comes' : k.Comes bound id r') : r = r' := by
  induction comes generalizing r' with
  | undefined absent =>
    cases comes' with
    | undefined _ => rfl
    | recorded recorded _ =>
      rw [absent] at recorded
      cases recorded
  | @recorded id i value recorded asked ih =>
    cases comes' with
    | undefined absent =>
      rw [absent] at recorded
      cases recorded
    | @recorded _ _ other recorded' asked' =>
      cases recorded.symm.trans recorded'
      apply Instruction.demand_congr_of_asks
      intro operand asks
      have both := asks.agree fun id v asks asks' came =>
        (ih id asks (asked' id asks')).symm.trans came
      exact ih operand asks (asked' operand both)

/-- A value that something comes of needs only values that something comes of. -/
theorem Comes.acc (comes : k.Comes bound id r) :
    Acc (fun operand id => k.Needs (k.Came bound) id operand) id := by
  induction comes with
  | undefined absent =>
    refine .intro _ ?_
    rintro operand ⟨i, recorded, _⟩
    rw [absent] at recorded
    cases recorded
  | @recorded id i value recorded asked ih =>
    refine .intro _ ?_
    rintro operand ⟨i', recorded', asks⟩
    cases recorded.symm.trans recorded'
    refine ih operand (asks.agree ?_)
    intro other v _ asks came
    exact (asked other asks).unique came

theorem not_circular_of_acc (acc : Acc (fun operand id => k.Needs came id operand) id) :
    ¬ k.Circular came id := by
  induction acc with
  | intro id _ ih =>
    rintro ⟨other, leads, around⟩
    rcases leads.cases_head with rfl | ⟨operand, needs, rest⟩
    · obtain ⟨operand, needs, back⟩ := Relation.TransGen.head'_iff.mp around
      exact ih operand needs ⟨id, back, around⟩
    · exact ih operand needs ⟨other, rest, around⟩

theorem Comes.not_circular (comes : k.Comes bound id r) : ¬ k.Circular (k.Came bound) id :=
  not_circular_of_acc comes.acc

end Kernel

end ScalarLowering
