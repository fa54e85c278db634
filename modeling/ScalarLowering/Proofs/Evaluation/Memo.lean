import Mathlib.Data.Finset.Card
import ScalarLowering.Proofs.Evaluation.Asking

set_option autoImplicit false

/- What a memo knows, which operand it reports as missing, and that an instruction
with no operand missing is computed as it is demanded. -/

namespace ScalarLowering

namespace Memo

variable {memo : Memo} {value : ValueId → Except EvalError Value}
variable {operation : Operation} {operand : ValueId}

/-- All that the memo knows is what `value` answers. -/
def Sound (memo : Memo) (value : ValueId → Except EvalError Value) : Prop :=
  ∀ id v, memo.known? id = some v → value id = .ok v

theorem firstUnknown?_some {ids : List ValueId} {id : ValueId}
    (missing : memo.firstUnknown? ids = some id) : id ∈ ids ∧ memo.known? id = none := by
  constructor
  · exact List.mem_of_find?_eq_some missing
  · simpa using List.find?_some missing

theorem firstUnknown?_none {ids : List ValueId} (complete : memo.firstUnknown? ids = none)
    {id : ValueId} (member : id ∈ ids) : ∃ v, memo.known? id = some v := by
  have found := List.find?_eq_none.mp complete id member
  simpa [Option.isNone_iff_eq_none, Option.ne_none_iff_exists'] using found

theorem operand_of_known {id : ValueId} {v : Value} (known : memo.known? id = some v) :
    memo.operand id = .ok v := by
  rw [operand, known]

theorem Sound.operand_eq (sound : memo.Sound value) {id : ValueId} {v : Value}
    (known : memo.known? id = some v) : memo.operand id = value id := by
  rw [operand_of_known known, sound id v known]

theorem Sound.mapM_eq (sound : memo.Sound value) {ids : List ValueId}
    (complete : memo.firstUnknown? ids = none) : ids.mapM memo.operand = ids.mapM value := by
  apply mapM_congr_of_mem
  intro id member
  obtain ⟨v, known⟩ := firstUnknown?_none complete member
  exact sound.operand_eq known

theorem Sound.mapM_ok (sound : memo.Sound value) {ids : List ValueId}
    (complete : memo.firstUnknown? ids = none) : ∃ vs, ids.mapM value = .ok vs := by
  apply mapM_ok_of_mem
  intro id member
  obtain ⟨v, known⟩ := firstUnknown?_none complete member
  exact ⟨v, sound id v known⟩

theorem Sound.missing_error (sound : memo.Sound value) (bound : Nat → Option Value) (id : ValueId)
    (i : Instruction) {e : EvalError} (missing : memo.missingOperand? i.operation = .error e) :
    i.demand bound id value = .error e := by
  obtain ⟨type, operation⟩ := i
  cases operation with
  | select condition onTrue onFalse =>
    simp only [missingOperand?] at missing
    split at missing
    · cases missing
    · cases missing
    · next v notBool known =>
      cases missing
      simp only [Instruction.demand, sound condition v known, ok_bind]
  | _ => cases missing

/-- Once no operand is missing the memo answers like `value`, whichever operation it is. -/
theorem Sound.compute_eq (sound : memo.Sound value) (bound : Nat → Option Value) (id : ValueId)
    (i : Instruction) (missing : memo.missingOperand? i.operation = .ok none) :
    memo.compute bound id i = i.demand bound id value := by
  obtain ⟨type, operation⟩ := i
  cases operation with
  | param index => cases type <;> rfl
  | const v => cases type <;> rfl
  | cast source =>
    have complete : memo.firstUnknown? [source] = none := Except.ok.inj missing
    obtain ⟨v, known⟩ := firstUnknown?_none complete List.mem_cons_self
    simp only [Instruction.demand, sound source v known, ok_bind]
    cases type with
    | array elem length => rfl
    | scalar t => simp [compute, operand_of_known known, ValueType.demanded]
  | neg source =>
    have complete : memo.firstUnknown? [source] = none := Except.ok.inj missing
    obtain ⟨v, known⟩ := firstUnknown?_none complete List.mem_cons_self
    simp only [Instruction.demand, sound source v known, ok_bind]
    cases type with
    | array elem length => rfl
    | scalar t => simp [compute, operand_of_known known, ValueType.demanded]
  | compare predicate lhs rhs =>
    have complete : memo.firstUnknown? [lhs, rhs] = none := Except.ok.inj missing
    obtain ⟨a, left⟩ := firstUnknown?_none complete List.mem_cons_self
    obtain ⟨b, right⟩ := firstUnknown?_none complete (List.mem_cons_of_mem _ List.mem_cons_self)
    simp only [Instruction.demand, sound lhs a left, sound rhs b right, ok_bind]
    cases type with
    | array elem length => rfl
    | scalar t =>
      simp [compute, operand_of_known left, operand_of_known right, ValueType.demanded]
  | select condition onTrue onFalse =>
    simp only [missingOperand?] at missing
    split at missing
    · cases missing
    · next b chosen =>
      have complete : memo.firstUnknown? [if b then onTrue else onFalse] = none :=
        Except.ok.inj missing
      obtain ⟨v, known⟩ := firstUnknown?_none complete List.mem_cons_self
      simp only [Instruction.demand, sound condition _ chosen, sound _ v known, ok_bind]
      cases type with
      | array elem length => rfl
      | scalar t =>
        simp [compute, operand_of_known chosen, operand_of_known known, ValueType.demanded]
    · cases missing
  | call symbol args template decorated =>
    have complete : memo.firstUnknown? args = none := Except.ok.inj missing
    obtain ⟨vs, results⟩ := sound.mapM_ok complete
    simp only [Instruction.demand, results, ok_bind]
    cases type with
    | array elem length => rfl
    | scalar t => simp [compute, sound.mapM_eq complete, results, ValueType.demanded]

theorem known?_setIfInBounds_self {id : ValueId} (v : Value) (inside : id.index < memo.size) :
    known? (memo.setIfInBounds id.index (some v)) id = some v := by
  simp [known?, inside]

theorem known?_setIfInBounds_ne {id other : ValueId} (v : Value) (apart : id ≠ other) :
    known? (memo.setIfInBounds id.index (some v)) other = memo.known? other := by
  have distinct : id.index ≠ other.index := fun same => apart (congrArg ValueId.mk same)
  simp [known?, Array.getElem?_setIfInBounds_ne distinct]

/-- The positions without a known value. -/
def unknowns (memo : Memo) : Finset Nat :=
  (Finset.range memo.size).filter fun position => memo.known? ⟨position⟩ = none

theorem mem_unknowns {position : Nat} :
    position ∈ memo.unknowns ↔ position < memo.size ∧ memo.known? ⟨position⟩ = none := by
  simp [unknowns]

theorem unknowns_setIfInBounds (id : ValueId) (v : Value) (inside : id.index < memo.size) :
    unknowns (memo.setIfInBounds id.index (some v)) = memo.unknowns.erase id.index := by
  ext position
  rw [Finset.mem_erase, mem_unknowns, mem_unknowns, Array.size_setIfInBounds]
  by_cases same : position = id.index
  · subst same
    simp [known?_setIfInBounds_self v inside]
  · have apart : id ≠ ⟨position⟩ := by
      rintro rfl
      exact same rfl
    simp [same, known?_setIfInBounds_ne v apart]

theorem card_unknowns_setIfInBounds {id : ValueId} (v : Value) (inside : id.index < memo.size)
    (unknown : memo.known? id = none) :
    (unknowns (memo.setIfInBounds id.index (some v))).card + 1 = memo.unknowns.card := by
  rw [unknowns_setIfInBounds id v inside]
  exact Finset.card_erase_add_one (mem_unknowns.mpr ⟨inside, unknown⟩)

theorem card_unknowns_le : memo.unknowns.card ≤ memo.size := by
  have filtered := Finset.card_filter_le (Finset.range memo.size)
    fun position => memo.known? ⟨position⟩ = none
  rwa [Finset.card_range] at filtered

/-- The value is known. -/
def Holds (memo : Memo) (id : ValueId) (v : Value) : Prop := memo.known? id = some v

theorem holds_setIfInBounds {top id : ValueId} {v w : Value} (inside : top.index < memo.size)
    (holds : Holds (memo.setIfInBounds top.index (some v)) id w) :
    (top = id ∧ v = w) ∨ memo.Holds id w := by
  by_cases same : top = id
  · subst same
    rw [Holds, known?_setIfInBounds_self v inside] at holds
    exact Or.inl ⟨rfl, Option.some.inj holds⟩
  · rw [Holds, known?_setIfInBounds_ne v same] at holds
    exact Or.inr holds

theorem exists_holds_iff {id : ValueId} :
    (∃ v, memo.Holds id v) ↔ (memo.known? id).isSome = true :=
  Option.isSome_iff_exists.symm

theorem firstUnknown?_eq_some_iff {ids : List ValueId} :
    memo.firstUnknown? ids = some operand ↔ memo.known? operand = none ∧
      ∃ earlier later, ids = earlier ++ operand :: later ∧
        ∀ id ∈ earlier, ∃ v, memo.Holds id v := by
  rw [firstUnknown?, List.find?_eq_some_iff_append]
  simp [exists_holds_iff]

/-- The missing operand is the unknown one among those that are asked for. -/
theorem missingOperand?_eq_some_iff :
    memo.missingOperand? operation = .ok (some operand) ↔
      operation.Asks memo.Holds operand ∧ memo.known? operand = none := by
  constructor
  · intro missing
    cases operation with
    | param index => cases missing
    | const v => cases missing
    | cast source =>
      obtain ⟨member, unknown⟩ := firstUnknown?_some (Except.ok.inj missing)
      obtain rfl := List.mem_singleton.mp member
      exact ⟨.cast operand, unknown⟩
    | neg source =>
      obtain ⟨member, unknown⟩ := firstUnknown?_some (Except.ok.inj missing)
      obtain rfl := List.mem_singleton.mp member
      exact ⟨.neg operand, unknown⟩
    | compare predicate lhs rhs =>
      obtain ⟨unknown, earlier, later, split, before⟩ :=
        firstUnknown?_eq_some_iff.mp (Except.ok.inj missing)
      refine ⟨?_, unknown⟩
      cases earlier with
      | nil =>
        cases split
        exact .left predicate operand rhs
      | cons first earlier =>
        obtain ⟨rfl, rest⟩ := List.cons.inj split
        obtain ⟨v, known⟩ := before lhs List.mem_cons_self
        have member : operand ∈ [rhs] := by
          rw [rest]
          exact List.mem_append_right earlier List.mem_cons_self
        obtain rfl := List.mem_singleton.mp member
        exact .right known
    | call symbol args template decorated =>
      obtain ⟨unknown, earlier, later, rfl, before⟩ :=
        firstUnknown?_eq_some_iff.mp (Except.ok.inj missing)
      exact ⟨.arg before, unknown⟩
    | select condition onTrue onFalse =>
      simp only [missingOperand?] at missing
      split at missing
      · next unknown =>
        cases missing
        exact ⟨.condition operand onTrue onFalse, unknown⟩
      · next b known =>
        obtain ⟨member, unknown⟩ := firstUnknown?_some (Except.ok.inj missing)
        obtain rfl := List.mem_singleton.mp member
        exact ⟨.branch known, unknown⟩
      · cases missing
  · rintro ⟨asks, unknown⟩
    cases asks with
    | cast => simp [missingOperand?, firstUnknown?, unknown]
    | neg => simp [missingOperand?, firstUnknown?, unknown]
    | left predicate lhs rhs => simp [missingOperand?, firstUnknown?, unknown]
    | right before =>
      rw [Holds] at before
      simp [missingOperand?, firstUnknown?, before, unknown]
    | condition condition onTrue onFalse => simp [missingOperand?, unknown]
    | branch chosen =>
      rw [Holds] at chosen
      simp [missingOperand?, firstUnknown?, chosen, unknown]
    | arg before =>
      exact congrArg Except.ok (firstUnknown?_eq_some_iff.mpr ⟨unknown, _, _, rfl, before⟩)

/-- What the memo knows, and the error for all other values. -/
def orError (memo : Memo) (e : EvalError) (id : ValueId) : Except EvalError Value :=
  match memo.known? id with
  | some v => .ok v
  | none => .error e

theorem orError_sound (memo : Memo) (e : EvalError) : memo.Sound (memo.orError e) := by
  intro id v known
  rw [orError, known]

theorem orError_of_unknown {id : ValueId} (unknown : memo.known? id = none) (e : EvalError) :
    memo.orError e id = .error e := by
  rw [orError, unknown]

theorem holds_of_orError {e : EvalError} {id : ValueId} {v : Value}
    (value : memo.orError e id = .ok v) : memo.Holds id v := by
  cases known : memo.known? id with
  | none =>
    rw [orError_of_unknown known] at value
    cases value
  | some w =>
    rw [orError_sound memo e id w known] at value
    cases value
    exact known

end Memo

end ScalarLowering
