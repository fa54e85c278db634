import ScalarLowering.Proofs.Evaluation.WorkList
import ScalarLowering.Proofs.Kernel.Continuation
import ScalarLowering.Proofs.Kernel.Routine

set_option autoImplicit false

/- Well-typed instructions, kernels that grow by them, and what follows for the
values: an instruction of scalar type computes a value of that type or fails as
one of its operands does, unless it calls the error function. -/

namespace ScalarLowering

namespace Kernel

/-- A scalar of type `t` among the values before a position. -/
def ScalarBefore (k : Kernel) (position : Nat) (id : ValueId) (t : NumType) : Prop :=
  id.index < position ∧ k.scalarType? id = some t

variable {k k' : Kernel}

theorem ScalarBefore.mono {position : Nat} {id : ValueId} {t : NumType}
    (scalar : k.ScalarBefore position id t) (continues : k.Continues k') :
    k'.ScalarBefore position id t :=
  ⟨scalar.1, continues.scalarType?_some scalar.2⟩

end Kernel

/-- What the type recorded for an instruction takes for granted about its operands. -/
inductive Instruction.WellTyped (k : Kernel) (position : Nat) : Instruction → Prop
  | param (type : ValueType) (index : Nat) : WellTyped k position ⟨type, .param index⟩
  | const (v : Value) : WellTyped k position ⟨.scalar v.type, .const v⟩
  | cast {s t : NumType} {source : ValueId} (operand : k.ScalarBefore position source s)
    (changes : s ≠ t) : WellTyped k position ⟨.scalar t, .cast source⟩
  | compare {t : NumType} {predicate : Predicate} {lhs rhs : ValueId}
    (left : k.ScalarBefore position lhs t) (right : k.ScalarBefore position rhs t)
    (ordered : t.isComplex = false) :
    WellTyped k position ⟨.scalar .bool, .compare predicate lhs rhs⟩
  | select {t : NumType} {condition onTrue onFalse : ValueId}
    (bool : k.ScalarBefore position condition .bool) (left : k.ScalarBefore position onTrue t)
    (right : k.ScalarBefore position onFalse t) :
    WellTyped k position ⟨.scalar t, .select condition onTrue onFalse⟩
  | neg {t : NumType} {operand : ValueId} (value : k.ScalarBefore position operand t)
    (int : t.isInt = true) : WellTyped k position ⟨.scalar t, .neg operand⟩
  /-- The template is a constant of the result's type, and the symbol is left as it is. -/
  | call {r : Routine} {t : NumType} {symbol : String} {args : List ValueId} {template : ValueId}
    {v : Value} (accepted : r.accepts t = true) (exported : r.symbol? t = some symbol)
    (count : args.length = r.arity) (arguments : ∀ arg ∈ args, k.ScalarBefore position arg t)
    (before : template.index < position)
    (constant : k.instruction? template = some ⟨.scalar (r.result t), .const v⟩) :
    WellTyped k position ⟨.scalar (r.result t), .call symbol args template false⟩

namespace Instruction.WellTyped

variable {k k' : Kernel} {position : Nat} {i : Instruction}

theorem mono (typed : i.WellTyped k position) (continues : k.Continues k') :
    i.WellTyped k' position := by
  cases typed with
  | param type index => exact .param type index
  | const v => exact .const v
  | cast operand changes => exact .cast (operand.mono continues) changes
  | compare left right ordered =>
    exact .compare (left.mono continues) (right.mono continues) ordered
  | select bool left right =>
    exact .select (bool.mono continues) (left.mono continues) (right.mono continues)
  | neg value int => exact .neg (value.mono continues) int
  | call accepted exported count arguments before constant =>
    refine .call accepted exported count ?_ before (continues.instruction?_some constant)
    intro arg member
    exact (arguments arg member).mono continues

/-- All operands are scalars that stand before the instruction. -/
theorem operand_scalar (typed : i.WellTyped k position) :
    ∀ operand ∈ i.operation.operands, ∃ t, k.ScalarBefore position operand t := by
  intro operand member
  cases typed with
  | param type index => cases member
  | const v => cases member
  | cast source changes =>
    obtain rfl := List.mem_singleton.mp member
    exact ⟨_, source⟩
  | compare left right ordered =>
    simp only [Operation.operands, List.mem_cons, List.not_mem_nil, or_false] at member
    rcases member with rfl | rfl
    · exact ⟨_, left⟩
    · exact ⟨_, right⟩
  | select bool left right =>
    simp only [Operation.operands, List.mem_cons, List.not_mem_nil, or_false] at member
    rcases member with rfl | rfl | rfl
    · exact ⟨_, bool⟩
    · exact ⟨_, left⟩
    · exact ⟨_, right⟩
  | neg value int =>
    obtain rfl := List.mem_singleton.mp member
    exact ⟨_, value⟩
  | call accepted exported count arguments before constant => exact ⟨_, arguments operand member⟩

/-- A well-typed instruction computes a value of its type once its operands have values of
theirs, and the only error of its own is that of a call to the error function. -/
theorem demand_outcome {allowed : EvalError → Prop} {id : ValueId} {t : NumType}
    {bound : Nat → Option Value} {value : ValueId → Except EvalError Value}
    (typed : i.WellTyped k id.index) (scalar : i.type = .scalar t)
    (operands : ∀ operand s, k.ScalarBefore id.index operand s → Outcome allowed s (value operand))
    (erf : ∀ e, EvalError.LacksErf e → allowed e)
    (params : ∀ index, i.operation = .param index → Outcome allowed t (boundValue bound index t)) :
    Outcome allowed t (i.demand bound id value) := by
  cases typed with
  | param type index =>
    obtain rfl : type = .scalar t := scalar
    exact params index rfl
  | const v =>
    cases scalar
    exact rfl
  | cast operand changes =>
    cases scalar
    apply (operands _ _ operand).bind
    intro v _
    exact v.type_cast t
  | @compare s predicate lhs rhs left right ordered =>
    cases scalar
    apply (operands lhs s left).bind
    intro a first
    apply (operands rhs s right).bind
    intro b second
    have real : a.type.isComplex = false := by
      rw [first]
      exact ordered
    obtain ⟨truth, answer⟩ := Value.compare?_of_real predicate (first.trans second.symm) real
    simp only [ValueType.demanded, ok_bind, Predicate.apply, answer]
    exact rfl
  | @select s condition onTrue onFalse bool left right =>
    cases scalar
    apply (operands condition .bool bool).bind
    intro c isBool
    obtain ⟨b, rfl⟩ := Value.eq_bool_of_type isBool
    have branch : Outcome allowed t (value (if b then onTrue else onFalse)) := by
      cases b with
      | true => exact operands onTrue t left
      | false => exact operands onFalse t right
    apply branch.bind
    intro v typed
    exact typed
  | @neg s operand value' int =>
    cases scalar
    apply (operands operand t value').bind
    intro v known
    have integer : v.type.isInt = true := by
      rw [known]
      exact int
    obtain ⟨w, opposite, type⟩ := Value.neg?_of_isInt integer
    simp only [ValueType.demanded, ok_bind, Value.negate, opposite]
    exact type.trans known
  | @call r s symbol args template w accepted exported count arguments before constant =>
    cases scalar
    apply Outcome.mapM_bind fun arg member => operands arg s (arguments arg member)
    intro vs length typed
    obtain ⟨outcome, _, called, result⟩ := r.call_eq accepted exported typed (length.trans count)
    simp only [ValueType.demanded, ok_bind, called]
    exact result.mono erf

end Instruction.WellTyped

namespace Kernel

variable {k k' k'' : Kernel}

/-- If every instruction from a position on is well typed, what holds of the outcomes before it
holds of all. -/
theorem outcome_from {allowed : EvalError → Prop} {bound : Nat → Option Value} {start : Nat}
    (typed : ∀ id i, start ≤ id.index → k.instruction? id = some i → i.WellTyped k id.index)
    (old : ∀ id t, id.index < start → k.scalarType? id = some t →
      Outcome allowed t (k.demand bound id))
    (erf : ∀ e, EvalError.LacksErf e → allowed e)
    (params : ∀ id t index, start ≤ id.index → k.instruction? id = some ⟨.scalar t, .param index⟩ →
      Outcome allowed t (boundValue bound index t)) :
    ∀ id t, k.scalarType? id = some t → Outcome allowed t (k.demand bound id) := by
  intro id
  induction position : id.index using Nat.strongRecOn generalizing id with
  | ind position ih =>
    intro t scalar
    by_cases early : id.index < start
    · exact old id t early scalar
    · have late : start ≤ id.index := Nat.le_of_not_lt early
      obtain ⟨i, recorded, type⟩ := Option.map_eq_some_iff.mp (typeOf?_of_scalarType? scalar)
      have wellTyped := typed id i late recorded
      rw [demand_of_some bound recorded fun operand member =>
        Or.inl (wellTyped.operand_scalar operand member).choose_spec.1]
      apply wellTyped.demand_outcome type _ erf
      · intro index operation
        apply params id t index late
        rw [recorded, ← type, ← operation]
      · intro operand s before
        exact ih operand.index (position ▸ before.1) operand rfl s before.2

/-- Every instruction is well typed at its position. -/
def WellTyped (k : Kernel) : Prop :=
  ∀ id i, k.instruction? id = some i → i.WellTyped k id.index

/-- `k'` continues `k` by well-typed instructions, none of which is a parameter. -/
structure Grows (k k' : Kernel) : Prop where
  continues : k.Continues k'
  params : k'.paramCount = k.paramCount
  typed : ∀ id i, k.size ≤ id.index → k'.instruction? id = some i → i.WellTyped k' id.index
  noParams : ∀ id i, k.size ≤ id.index → k'.instruction? id = some i →
    ∀ index, i.operation ≠ .param index

/-- The value of a scalar, if it has one, is of the recorded type. -/
def Sound (k : Kernel) (bound : Nat → Option Value) : Prop :=
  ∀ id t, k.scalarType? id = some t → Outcome (fun _ => True) t (k.demand bound id)

theorem WellTyped.ordered (typed : k.WellTyped) : k.Ordered := by
  intro id i recorded operand member
  obtain ⟨t, before, _⟩ := (typed id i recorded).operand_scalar operand member
  exact Or.inl before

theorem WellTyped.push (typed : k.WellTyped) {i : Instruction} (last : i.WellTyped k k.size) :
    (k.push i).WellTyped := by
  intro id j recorded
  rcases instruction?_push_cases recorded with old | ⟨rfl, rfl⟩
  · exact (typed id j old).mono (continues_push i)
  · exact last.mono (continues_push j)

theorem Grows.refl (k : Kernel) : k.Grows k where
  continues := .refl k
  params := rfl
  typed := fun _ _ outside recorded => absurd (index_lt_size recorded) (Nat.not_lt.mpr outside)
  noParams := fun _ _ outside recorded => absurd (index_lt_size recorded) (Nat.not_lt.mpr outside)

theorem Grows.trans (first : k.Grows k') (second : k'.Grows k'') : k.Grows k'' where
  continues := first.continues.trans second.continues
  params := second.params.trans first.params
  typed := by
    intro id i outside recorded
    by_cases between : id.index < k'.size
    · rw [second.continues.instruction?_eq between] at recorded
      exact (first.typed id i outside recorded).mono second.continues
    · exact second.typed id i (Nat.le_of_not_lt between) recorded
  noParams := by
    intro id i outside recorded
    by_cases between : id.index < k'.size
    · rw [second.continues.instruction?_eq between] at recorded
      exact first.noParams id i outside recorded
    · exact second.noParams id i (Nat.le_of_not_lt between) recorded

theorem Grows.push {i : Instruction} (typed : i.WellTyped k k.size)
    (notParam : ∀ index, i.operation ≠ .param index) : k.Grows (k.push i) where
  continues := continues_push i
  params := rfl
  typed := by
    intro id j outside recorded
    rcases instruction?_push_cases recorded with old | ⟨rfl, rfl⟩
    · exact absurd (index_lt_size old) (Nat.not_lt.mpr outside)
    · exact typed.mono (continues_push j)
  noParams := by
    intro id j outside recorded
    rcases instruction?_push_cases recorded with old | ⟨rfl, rfl⟩
    · exact absurd (index_lt_size old) (Nat.not_lt.mpr outside)
    · exact notParam

theorem Grows.added (grows : k.Grows k') :
    ∃ added, k'.definitions.toList = k.definitions.toList ++ definitionsFrom k.size added ∧
      ∀ i ∈ added, ∀ index, i.operation ≠ .param index := by
  obtain ⟨added, whole⟩ := grows.continues
  refine ⟨added, whole, ?_⟩
  intro i member
  obtain ⟨offset, found⟩ := List.mem_iff_getElem?.mp member
  have recorded : k'.instruction? ⟨k.size + offset⟩ = some i := by
    rw [instruction?_of_append whole (Nat.le_add_right _ _), Nat.add_sub_cancel_left, found]
  exact grows.noParams ⟨k.size + offset⟩ _ (Nat.le_add_right k.size offset) recorded

theorem Grows.wellTyped (grows : k.Grows k') (typed : k.WellTyped) : k'.WellTyped := by
  intro id i recorded
  by_cases old : id.index < k.size
  · rw [grows.continues.instruction?_eq old] at recorded
    exact (typed id i recorded).mono grows.continues
  · exact grows.typed id i (Nat.le_of_not_lt old) recorded

/-- Growing keeps soundness, also where the kernel before was not well typed. -/
theorem Grows.sound (grows : k.Grows k') {bound : Nat → Option Value} (sound : k.Sound bound) :
    k'.Sound bound := by
  apply outcome_from grows.typed _ (fun _ _ => trivial)
  · intro id t index outside recorded
    exact absurd rfl (grows.noParams id _ outside recorded index)
  · intro id t old scalar
    have type := grows.continues.instruction?_eq old
    rw [grows.continues.demand_eq bound old]
    apply sound id t
    rw [scalarType?, typeOf?, ← type]
    exact scalar

theorem WellTyped.sound (typed : k.WellTyped) (bound : Nat → Option Value) : k.Sound bound := by
  apply outcome_from (fun id i _ recorded => typed id i recorded)
    (fun _ _ early => absurd early (Nat.not_lt_zero _)) (fun _ _ => trivial)
  intro id t index _ _
  rw [boundValue]
  cases bound index with
  | none => trivial
  | some v =>
    by_cases same : v.type = t
    · simp only [if_pos same]
      exact same
    · simp only [if_neg same]
      trivial

end Kernel

end ScalarLowering
