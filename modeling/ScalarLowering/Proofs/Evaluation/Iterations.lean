import ScalarLowering.Proofs.Evaluation.WorkList

set_option autoImplicit false

/- The loop of an evaluation, iteration by iteration, in kernels whose operands
stand before their instructions or nowhere. The pending values come ever earlier
towards the top, what the memo knows it keeps, and each instruction is computed
once, so that shared values cost nothing and chains need no more room than their
length. -/

namespace ScalarLowering

namespace Evaluation

/-- The state after some iterations of the loop, if it goes on for so long. -/
def stateAt? (k : Kernel) (bound : Nat → Option Value) (start : ValueId) : Nat → Option Evaluation
  | 0 => some (.start k start)
  | n + 1 => do
    let s ← stateAt? k bound start n
    if s.pending.isEmpty then none else (s.step k bound).toOption

/-- The next iteration computes an instruction, which is on top with no operand missing. -/
def ComputesNext (k : Kernel) (s : Evaluation) (id : ValueId) : Prop :=
  ∃ rest i, s.pending = id :: rest ∧ s.memo.known? id = none ∧ k.instruction? id = some i ∧
    s.memo.missingOperand? i.operation = .ok none

/-- What holds between any two iterations. The top stands in front of the pending values. -/
structure Orderly (k : Kernel) (bound : Nat → Option Value) (s : Evaluation) : Prop where
  ascending : (s.pending.filter fun id => (k.instruction? id).isSome).Pairwise
    fun above below => above.index < below.index
  defined : ∀ id ∈ s.pending.tail, (k.instruction? id).isSome = true
  length : s.pending.length ≤ k.size + 1
  reference : ∀ id v, s.memo.Holds id v → k.demand bound id = .ok v

/-- What holds of a whole computation, state by state. -/
structure Thrifty (k : Kernel) (bound : Nat → Option Value) (start : ValueId) : Prop where
  /-- The loop passes through these states. -/
  passes : ∀ n s, stateAt? k bound start n = some s →
    ∀ fuel, run k bound start (n + fuel) (.start k start) = run k bound start fuel s
  orderly : ∀ n s, stateAt? k bound start n = some s → s.Orderly k bound
  /-- The memo only ever learns what is computed. -/
  learns : ∀ n s t, stateAt? k bound start n = some s → stateAt? k bound start (n + 1) = some t →
    t.memo = s.memo ∨
      ∃ id v, s.ComputesNext k id ∧ t.memo = s.memo.setIfInBounds id.index (some v)
  keeps : ∀ m n s t, m ≤ n → stateAt? k bound start m = some s →
    stateAt? k bound start n = some t → ∀ id v, s.memo.Holds id v → t.memo.Holds id v
  once : ∀ m n s t id, stateAt? k bound start m = some s → stateAt? k bound start n = some t →
    s.ComputesNext k id → t.ComputesNext k id → m = n

variable {k : Kernel} {bound : Nat → Option Value} {start id : ValueId} {s t : Evaluation}
variable {m n : Nat}

theorem stateAt?_succ_iff :
    stateAt? k bound start (n + 1) = some t ↔
      ∃ s, stateAt? k bound start n = some s ∧ s.pending ≠ [] ∧ s.step k bound = .ok t := by
  rw [stateAt?]
  constructor
  · intro reached
    obtain ⟨s, before, next⟩ := Option.bind_eq_some_iff.mp reached
    refine ⟨s, before, ?_⟩
    split_ifs at next with empty
    refine ⟨fun none => empty (List.isEmpty_iff.mpr none), ?_⟩
    cases step : s.step k bound with
    | error e =>
      rw [step] at next
      cases next
    | ok u =>
      rw [step] at next
      cases next
      rfl
  · rintro ⟨s, before, waits, next⟩
    simp [before, waits, next, Except.toOption]

theorem stateAt?_reaches (reached : stateAt? k bound start n = some s) :
    Reaches k bound (.start k start) s := by
  induction n generalizing s with
  | zero =>
    cases reached
    exact .refl
  | succ n ih =>
    obtain ⟨u, before, _, next⟩ := stateAt?_succ_iff.mp reached
    exact .step (ih before) next

theorem stateAt?_of_le (before : m ≤ n) (reached : stateAt? k bound start n = some t) :
    ∃ s, stateAt? k bound start m = some s := by
  induction before generalizing t with
  | refl => exact ⟨t, reached⟩
  | step _ ih =>
    obtain ⟨u, last, _, _⟩ := stateAt?_succ_iff.mp reached
    exact ih last

theorem run_stateAt? (reached : stateAt? k bound start n = some s) (fuel : Nat) :
    run k bound start (n + fuel) (.start k start) = run k bound start fuel s := by
  induction n generalizing s fuel with
  | zero =>
    cases reached
    rw [Nat.zero_add]
  | succ n ih =>
    obtain ⟨u, before, waits, next⟩ := stateAt?_succ_iff.mp reached
    have waiting : ¬ u.pending.isEmpty = true := fun empty => waits (List.isEmpty_iff.mp empty)
    rw [Nat.add_assoc, Nat.add_comm 1 fuel, ih before, run, if_neg waiting]
    simp only [next]

/-- All that an iteration can do to the memo. -/
theorem step_memo (next : s.step k bound = .ok t) :
    t.memo = s.memo ∨
      ∃ id v, s.ComputesNext k id ∧ t.memo = s.memo.setIfInBounds id.index (some v) := by
  obtain ⟨memo, pending⟩ := s
  cases pending with
  | nil =>
    cases next
    exact Or.inl rfl
  | cons top rest =>
    rw [step] at next
    split_ifs at next with known
    · cases next
      exact Or.inl rfl
    · rw [Option.not_isSome_iff_eq_none] at known
      cases recorded : k.instruction? top with
      | none =>
        rw [recorded] at next
        cases next
      | some i =>
        simp only [recorded] at next
        split at next
        · cases next
        · cases next
          exact Or.inl rfl
        · rename_i missing
          split at next
          · cases next
          · rename_i v _
            cases next
            exact Or.inr ⟨top, v, ⟨rest, i, rfl, known, recorded, missing⟩, rfl⟩

/-- What the memo knows it keeps, since only unknown values are computed. -/
theorem step_keeps (next : s.step k bound = .ok t) {v : Value} (holds : s.memo.Holds id v) :
    t.memo.Holds id v := by
  rcases step_memo next with same | ⟨top, w, ⟨_, _, _, unknown, _⟩, learnt⟩
  · rw [same]
    exact holds
  · have apart : top ≠ id := by
      rintro rfl
      rw [Memo.Holds, unknown] at holds
      cases holds
    rw [learnt]
    exact (Memo.known?_setIfInBounds_ne w apart).trans holds

theorem stateAt?_keeps (before : m ≤ n) (first : stateAt? k bound start m = some s)
    (second : stateAt? k bound start n = some t) {v : Value} (holds : s.memo.Holds id v) :
    t.memo.Holds id v := by
  induction before generalizing t with
  | refl =>
    cases first.symm.trans second
    exact holds
  | step _ ih =>
    obtain ⟨u, last, _, next⟩ := stateAt?_succ_iff.mp second
    exact step_keeps next (ih last)

/-- Once an instruction has been computed, the memo knows it. -/
theorem ComputesNext.holds (computes : s.ComputesNext k id) (size : s.memo.size = k.size)
    (next : s.step k bound = .ok t) : ∃ v, t.memo.Holds id v := by
  obtain ⟨memo, pending⟩ := s
  obtain ⟨rest, i, rfl, unknown, recorded, missing⟩ := computes
  have inside : id.index < memo.size := by
    rw [show memo.size = k.size from size]
    exact Kernel.index_lt_size recorded
  simp only [step, unknown, recorded, missing, Option.isSome_none] at next
  cases result : memo.compute bound id i with
  | error e =>
    rw [result] at next
    cases next
  | ok v =>
    rw [result] at next
    cases next
    exact ⟨v, Memo.known?_setIfInBounds_self v inside⟩

/-- An instruction that is computed is not known, so it has not been computed before. -/
theorem not_computesNext_of_lt (before : m < n) (first : stateAt? k bound start m = some s)
    (second : stateAt? k bound start n = some t) (computes : s.ComputesNext k id) :
    ¬ t.ComputesNext k id := by
  rintro ⟨_, _, _, unknown, _⟩
  obtain ⟨u, after⟩ := stateAt?_of_le before second
  obtain ⟨s', first', _, next⟩ := stateAt?_succ_iff.mp after
  cases first.symm.trans first'
  have course := (stateAt?_reaches first).course (start_course k bound start)
  obtain ⟨v, holds⟩ := computes.holds course.size next
  have kept := stateAt?_keeps before after second holds
  rw [Memo.Holds, unknown] at kept
  cases kept

/-- Towards the operands, positions come down, until a value is not defined. -/
theorem index_lt_of_leads (ordered : k.Ordered) {came : ValueId → Value → Prop}
    {below above : ValueId} (leads : Relation.TransGen (k.Needs came) below above)
    (defined : (k.instruction? above).isSome = true) : above.index < below.index := by
  have step {a b : ValueId} (needs : k.Needs came a b)
      (defined : (k.instruction? b).isSome = true) : b.index < a.index := by
    obtain ⟨i, recorded, asks⟩ := needs
    apply (ordered a i recorded b asks.mem_operands).resolve_right
    intro absent
    rw [absent] at defined
    cases defined
  induction leads with
  | single needs => exact step needs defined
  | tail _ needs ih =>
    have later := step needs defined
    obtain ⟨i, recorded, _⟩ := needs
    have earlier := ih (by rw [recorded]; rfl)
    omega

theorem length_le_of_ascending {positions : List Nat} (ascending : positions.Pairwise (· < ·))
    {limit : Nat} (inside : ∀ position ∈ positions, position < limit) :
    positions.length ≤ limit := by
  have within : positions.toFinset ⊆ Finset.range limit := by
    intro position member
    exact Finset.mem_range.mpr (inside position (List.mem_toFinset.mp member))
  have count := Finset.card_le_card within
  rwa [List.toFinset_card_of_nodup (ascending.imp Nat.ne_of_lt), Finset.card_range] at count

theorem Course.orderly (ordered : k.Ordered) (course : Course k bound start s) :
    s.Orderly k bound := by
  have ascending : (s.pending.filter fun id => (k.instruction? id).isSome).Pairwise
      fun above below => above.index < below.index := by
    rw [List.pairwise_filter]
    refine course.waiting.imp ?_
    intro above below leads defined _
    exact index_lt_of_leads ordered leads defined
  -- Each value below the top asks for another one, so it has an instruction.
  have recorded : ∀ id ∈ s.pending.tail, ∃ i, k.instruction? id = some i := by
    intro id member
    cases waiting : s.pending with
    | nil =>
      rw [waiting] at member
      cases member
    | cons top rest =>
      have asked := course.waiting
      rw [waiting] at asked member
      have leads := (List.pairwise_cons.mp asked).1 id member
      obtain ⟨_, ⟨i, recorded, _⟩, _⟩ := Relation.TransGen.head'_iff.mp leads
      exact ⟨i, recorded⟩
  have defined : ∀ id ∈ s.pending.tail, (k.instruction? id).isSome = true := fun id member =>
    Option.isSome_iff_exists.mpr (recorded id member)
  refine ⟨ascending, defined, ?_, ?_⟩
  · have below : s.pending.tail.Pairwise fun above below => above.index < below.index := by
      have kept := ascending.sublist ((List.tail_sublist s.pending).filter _)
      rwa [List.filter_eq_self.mpr defined] at kept
    have bound := length_le_of_ascending (List.pairwise_map.mpr below)
      (List.forall_mem_map.mpr fun id member =>
        let ⟨_, recorded⟩ := recorded id member
        Kernel.index_lt_size recorded)
    rw [List.length_map, List.length_tail] at bound
    omega
  · intro id v holds
    exact (ordered.comes bound id).unique (course.sound id v holds)

/-- In an ordered kernel every computation is thrifty: the pending values are in order and no more
than there are instructions and one, the memo keeps what it knows, which are the values that the
recursion on positions gives, and no instruction is computed twice. -/
theorem ordered_thrifty (ordered : k.Ordered) (bound : Nat → Option Value) (start : ValueId) :
    Thrifty k bound start where
  passes := fun _ _ => run_stateAt?
  orderly := fun _ _ reached =>
    ((stateAt?_reaches reached).course (start_course k bound start)).orderly ordered
  learns := by
    intro n s t before after
    obtain ⟨s', before', _, next⟩ := stateAt?_succ_iff.mp after
    cases before.symm.trans before'
    exact step_memo next
  keeps := fun _ _ _ _ before first second _ _ => stateAt?_keeps before first second
  once := by
    intro m n s t id first second computes computes'
    rcases Nat.lt_trichotomy m n with earlier | same | later
    · exact absurd computes' (not_computesNext_of_lt earlier first second computes)
    · exact same
    · exact absurd computes (not_computesNext_of_lt later second first computes')

/-- A comparison of a parameter with itself chooses between the parameter and an undefined value. -/
def sharedParam : Kernel where
  definitions :=
    #[⟨⟨0⟩, .scalar .int64, .param 0⟩, ⟨⟨1⟩, .scalar .bool, .compare .lt ⟨0⟩ ⟨0⟩⟩,
      ⟨⟨2⟩, .scalar .int64, .select ⟨1⟩ ⟨0⟩ ⟨7⟩⟩]
  paramCount := 1

theorem sharedParam_thrifty :
    sharedParam.Ordered ∧
      ∃ s, stateAt? sharedParam (fun _ => some (.int .signed .w64 5)) ⟨2⟩ 5 = some s ∧
        s.pending = [⟨7⟩, ⟨2⟩] ∧ s.Orderly sharedParam fun _ => some (.int .signed .w64 5) := by
  have ordered : sharedParam.Ordered := by decide
  have thrifty := ordered_thrifty ordered (fun _ => some (.int .signed .w64 5)) ⟨2⟩
  exact ⟨ordered, _, rfl, rfl, thrifty.orderly 5 _ rfl⟩

end Evaluation

end ScalarLowering
