import ScalarLowering.Proofs.Evaluation.Memo

set_option autoImplicit false

/- The list of pending values finds what comes of a value. The memo never holds
anything but values that come, each pending value is asked for by the one below
it, and every step either puts an unknown value on top or makes the one on top
known. In an ordered kernel, this is what `Kernel.demand` finds. -/

namespace ScalarLowering

namespace Evaluation

variable {k : Kernel} {bound : Nat → Option Value} {start : ValueId}

/-- The states that a computation passes through. -/
inductive Reaches (k : Kernel) (bound : Nat → Option Value) (s : Evaluation) : Evaluation → Prop
  | refl : Reaches k bound s s
  | step {t u : Evaluation} (before : Reaches k bound s t) (next : t.step k bound = .ok u) :
    Reaches k bound s u

/-- Something comes of a value with no operand missing, or whose missing operand fails. -/
theorem comes_orError {memo : Memo} {top : ValueId} {i : Instruction} (e : EvalError)
    (sound : ∀ id v, memo.Holds id v → k.Comes bound id (.ok v))
    (recorded : k.instruction? top = some i)
    (missing : ∀ operand, memo.missingOperand? i.operation = .ok (some operand) →
      k.Comes bound operand (.error e)) :
    k.Comes bound top (i.demand bound top (memo.orError e)) := by
  refine .recorded recorded ?_
  intro operand asks
  have asked : i.operation.Asks memo.Holds operand :=
    asks.agree fun id v _ _ => Memo.holds_of_orError
  cases known : memo.known? operand with
  | none =>
    rw [Memo.orError_of_unknown known]
    exact missing operand (Memo.missingOperand?_eq_some_iff.mpr ⟨asked, known⟩)
  | some v =>
    rw [memo.orError_sound e operand v known]
    exact sound operand v known

/-- All that a step can do with an unknown value on top, wherever its operands stand. -/
theorem step_comes {memo : Memo} {top : ValueId}
    (sound : ∀ id v, memo.Holds id v → k.Comes bound id (.ok v)) (rest : List ValueId)
    (unknown : memo.known? top = none) :
    (∃ e, step k bound ⟨memo, top :: rest⟩ = .error e ∧ k.Comes bound top (.error e)) ∨
    (∃ operand, step k bound ⟨memo, top :: rest⟩ = .ok ⟨memo, operand :: top :: rest⟩ ∧
      k.Needs (k.Came bound) top operand ∧ memo.known? operand = none ∧
      ∀ e, k.Comes bound operand (.error e) → k.Comes bound top (.error e)) ∨
    (∃ v, step k bound ⟨memo, top :: rest⟩ = .ok ⟨memo.setIfInBounds top.index (some v), rest⟩ ∧
      top.index < k.size ∧ k.Comes bound top (.ok v)) := by
  cases recorded : k.instruction? top with
  | none =>
    refine Or.inl ⟨.undefinedValue top, ?_, .undefined recorded⟩
    simp [step, unknown, recorded]
  | some i =>
    cases missing : memo.missingOperand? i.operation with
    | error e =>
      have comes := comes_orError e sound recorded (by rw [missing]; exact nofun)
      rw [(memo.orError_sound e).missing_error bound top i missing] at comes
      refine Or.inl ⟨e, ?_, comes⟩
      simp [step, unknown, recorded, missing]
    | ok choice =>
      cases choice with
      | some operand =>
        obtain ⟨asks, isUnknown⟩ := Memo.missingOperand?_eq_some_iff.mp missing
        have needs : k.Needs (k.Came bound) top operand :=
          ⟨i, recorded, asks.agree fun id v _ _ => sound id v⟩
        refine Or.inr (Or.inl ⟨operand, ?_, needs, isUnknown, ?_⟩)
        · simp [step, unknown, recorded, missing]
        · intro e failed
          have comes := comes_orError e sound recorded fun operand' missing' => by
            cases missing.symm.trans missing'
            exact failed
          have asked := asks.agree fun id v _ _ => memo.orError_sound e id v
          rwa [Instruction.demand_error_of_asks bound top i asked
            (Memo.orError_of_unknown isUnknown e)] at comes
      | none =>
        have comes := comes_orError (.undefinedValue top) sound recorded
          (by rw [missing]; exact nofun)
        rw [← (memo.orError_sound _).compute_eq bound top i missing] at comes
        cases result : memo.compute bound top i with
        | error e =>
          rw [result] at comes
          refine Or.inl ⟨e, ?_, comes⟩
          simp [step, unknown, recorded, missing, result]
        | ok v =>
          rw [result] at comes
          refine Or.inr (Or.inr ⟨v, ?_, Kernel.index_lt_size recorded, comes⟩)
          simp [step, unknown, recorded, missing, result]

/-- What holds on the way to the value of `start`, also in a kernel where nothing comes of it. -/
structure Course (k : Kernel) (bound : Nat → Option Value) (start : ValueId)
    (s : Evaluation) : Prop where
  size : s.memo.size = k.size
  sound : ∀ id v, s.memo.Holds id v → k.Comes bound id (.ok v)
  /-- Each value is pending because the one below it asks for it. -/
  waiting : s.pending.Pairwise fun above below =>
    Relation.TransGen (k.Needs (k.Came bound)) below above
  led : ∀ id ∈ s.pending, Relation.ReflTransGen (k.Needs (k.Came bound)) start id
  needed : ∀ id ∈ s.pending, ∀ e, k.Comes bound id (.error e) → k.Comes bound start (.error e)
  answered : start ∈ s.pending ∨ ∃ v, s.memo.Holds start v

theorem start_blank (k : Kernel) (id other : ValueId) :
    (Evaluation.start k id).memo.known? other = none := by
  by_cases inside : other.index < k.size <;> simp [Evaluation.start, Memo.known?, inside]

theorem start_course (k : Kernel) (bound : Nat → Option Value) (id : ValueId) :
    Course k bound id (.start k id) where
  size := by simp [Evaluation.start]
  sound := by
    intro other v known
    rw [Memo.Holds, start_blank] at known
    cases known
  waiting := List.pairwise_singleton _ _
  led := by
    intro other member
    rw [List.mem_singleton.mp member]
  needed := by
    intro other member e failed
    rwa [← List.mem_singleton.mp member]
  answered := Or.inl List.mem_cons_self

variable {memo : Memo} {top operand : ValueId} {rest : List ValueId} {v : Value}

theorem Course.pop (course : Course k bound start ⟨memo, top :: rest⟩)
    (known : memo.Holds top v) : Course k bound start ⟨memo, rest⟩ where
  size := course.size
  sound := course.sound
  waiting := course.waiting.of_cons
  led := fun id member => course.led id (List.mem_cons_of_mem top member)
  needed := fun id member => course.needed id (List.mem_cons_of_mem top member)
  answered := by
    rcases course.answered with pending | answered
    · rcases List.mem_cons.mp pending with rfl | waiting
      · exact Or.inr ⟨v, known⟩
      · exact Or.inl waiting
    · exact Or.inr answered

theorem Course.push (course : Course k bound start ⟨memo, top :: rest⟩)
    (needs : k.Needs (k.Came bound) top operand)
    (fails : ∀ e, k.Comes bound operand (.error e) → k.Comes bound top (.error e)) :
    Course k bound start ⟨memo, operand :: top :: rest⟩ where
  size := course.size
  sound := course.sound
  waiting := by
    refine List.pairwise_cons.mpr ⟨?_, course.waiting⟩
    intro id member
    rcases List.mem_cons.mp member with rfl | below
    · exact .single needs
    · exact .tail ((List.pairwise_cons.mp course.waiting).1 id below) needs
  led := List.forall_mem_cons.mpr
    ⟨(course.led top List.mem_cons_self).tail needs, course.led⟩
  needed := List.forall_mem_cons.mpr
    ⟨fun e failed => course.needed top List.mem_cons_self e (fails e failed), course.needed⟩
  answered := course.answered.imp_left (List.mem_cons_of_mem operand)

theorem Course.learn {pending : List ValueId} (course : Course k bound start ⟨memo, pending⟩)
    (inside : top.index < memo.size) (comes : k.Comes bound top (.ok v)) :
    Course k bound start ⟨memo.setIfInBounds top.index (some v), pending⟩ where
  size := by
    rw [Array.size_setIfInBounds]
    exact course.size
  sound := by
    intro id w holds
    rcases Memo.holds_setIfInBounds inside holds with ⟨rfl, rfl⟩ | before
    · exact comes
    · exact course.sound id w before
  waiting := course.waiting
  led := course.led
  needed := course.needed
  answered := by
    refine course.answered.imp_right ?_
    rintro ⟨w, holds⟩
    by_cases same : top = start
    · subst same
      exact ⟨v, Memo.known?_setIfInBounds_self v inside⟩
    · exact ⟨w, (Memo.known?_setIfInBounds_ne v same).trans holds⟩

/-- A known value on top is taken off; otherwise the step is one of three. -/
theorem Course.step {s t : Evaluation} (course : Course k bound start s)
    (next : s.step k bound = .ok t) : Course k bound start t := by
  obtain ⟨memo, pending⟩ := s
  cases pending with
  | nil =>
    cases next
    exact course
  | cons top rest =>
    cases known : memo.known? top with
    | some v =>
      simp only [Evaluation.step, known, Option.isSome_some, if_true] at next
      cases next
      exact course.pop known
    | none =>
      rcases step_comes course.sound rest known with
        ⟨e, failed, _⟩ | ⟨operand, pushed, needs, _, fails⟩ | ⟨v, settled, inside, comes⟩
      · rw [failed] at next
        cases next
      · rw [pushed] at next
        cases next
        exact course.push needs fails
      · rw [settled] at next
        cases next
        have insideMemo : top.index < memo.size := lt_of_lt_of_eq inside course.size.symm
        exact (course.learn insideMemo comes).pop (Memo.known?_setIfInBounds_self v insideMemo)

theorem Reaches.course {s t : Evaluation} (reached : Reaches k bound s t)
    (course : Course k bound start s) : Course k bound start t := by
  induction reached with
  | refl => exact course
  | step _ next ih => exact ih.step next

/-- The first error on the way is what comes of the value that the computation started from. -/
theorem Course.error {s : Evaluation} {e : EvalError} (course : Course k bound start s)
    (failed : s.step k bound = .error e) : k.Comes bound start (.error e) := by
  obtain ⟨memo, pending⟩ := s
  cases pending with
  | nil => cases failed
  | cons top rest =>
    cases known : memo.known? top with
    | some v =>
      simp only [Evaluation.step, known, Option.isSome_some, if_true] at failed
      cases failed
    | none =>
      rcases step_comes course.sound rest known with
        ⟨e', failed', comes⟩ | ⟨operand, pushed, _⟩ | ⟨v, settled, _⟩
      · cases failed.symm.trans failed'
        exact course.needed top List.mem_cons_self e comes
      · rw [pushed] at failed
        cases failed
      · rw [settled] at failed
        cases failed

theorem Course.comes_of_done {s : Evaluation} (course : Course k bound start s)
    (done : s.pending = []) : k.Comes bound start (s.memo.operand start) := by
  have answered := course.answered
  rw [done] at answered
  obtain ⟨v, holds⟩ := answered.resolve_left List.not_mem_nil
  rw [Memo.operand_of_known holds]
  exact course.sound start v holds

/-- Whatever a computation ends with is what comes of the value. -/
theorem Course.comes_of_run {r : Except EvalError Value} {s : Evaluation}
    (course : Course k bound start s) (fuel : Nat) (ends : run k bound start fuel s = some r) :
    k.Comes bound start r := by
  induction fuel, s using run.induct k bound with
  | case1 fuel s done =>
    rw [run.eq_def] at ends
    dsimp only at ends
    rw [if_pos done] at ends
    cases ends
    exact course.comes_of_done (List.isEmpty_iff.mp done)
  | case2 s waits =>
    rw [run, if_neg waits] at ends
    cases ends
  | case3 s waits fuel e failed =>
    simp only [run, waits, failed] at ends
    cases ends
    exact course.error failed
  | case4 s waits fuel t next ih =>
    simp only [run, waits, next] at ends
    exact ih (course.step next) ends

theorem index_lt_of_needs {came : ValueId → Value → Prop} {id other : ValueId}
    (needs : Relation.TransGen (k.Needs came) id other) : id.index < k.size := by
  obtain ⟨_, ⟨i, recorded, _⟩, _⟩ := Relation.TransGen.head'_iff.mp needs
  exact Kernel.index_lt_size recorded

/-- The values below the top are different unknown ones, unless some value needs itself. -/
theorem Course.pending_le {s : Evaluation} (course : Course k bound start s)
    (straight : ¬ k.Circular (k.Came bound) start)
    (unknown : ∀ id ∈ s.pending, s.memo.known? id = none) :
    s.pending.Nodup ∧ s.pending.length ≤ s.memo.unknowns.card + 1 := by
  have nodup : s.pending.Nodup := by
    refine course.waiting.imp_of_mem ?_
    rintro above below member _ needs rfl
    exact straight ⟨above, course.led above member, needs⟩
  refine ⟨nodup, ?_⟩
  obtain ⟨memo, pending⟩ := s
  cases pending with
  | nil => exact Nat.zero_le _
  | cons top rest =>
    have distinct : (rest.map (·.index)).Nodup := by
      refine (List.nodup_cons.mp nodup).2.map ?_
      rintro ⟨index⟩ ⟨_⟩ rfl
      rfl
    have inside : (rest.map (·.index)).toFinset ⊆ memo.unknowns := by
      intro position member
      obtain ⟨id, below, rfl⟩ := List.mem_map.mp (List.mem_toFinset.mp member)
      refine Memo.mem_unknowns.mpr ⟨?_, unknown id (List.mem_cons_of_mem top below)⟩
      rw [show memo.size = k.size from course.size]
      exact index_lt_of_needs ((List.pairwise_cons.mp course.waiting).1 id below)
    have count := Finset.card_le_card inside
    rw [List.toFinset_card_of_nodup distinct, List.length_map] at count
    simpa using count

/-- A computation ends if no value needs itself. A step lowers twice the number of unknown values
less the number of pending ones. -/
theorem Course.ends {s : Evaluation} (course : Course k bound start s)
    (straight : ¬ k.Circular (k.Came bound) start)
    (unknown : ∀ id ∈ s.pending, s.memo.known? id = none) (fuel : Nat)
    (enough : 2 * s.memo.unknowns.card + 2 ≤ fuel + s.pending.length) :
    ∃ r, run k bound start fuel s = some r := by
  induction fuel generalizing s with
  | zero =>
    have atMost := (course.pending_le straight unknown).2
    omega
  | succ fuel ih =>
    have nodup := (course.pending_le straight unknown).1
    obtain ⟨memo, pending⟩ := s
    cases pending with
    | nil => exact ⟨_, rfl⟩
    | cons top rest =>
      obtain ⟨isUnknown, unknownBelow⟩ := List.forall_mem_cons.mp unknown
      simp only [run, List.isEmpty_cons, Bool.false_eq_true, if_false]
      rcases step_comes course.sound rest isUnknown with
        ⟨e, failed, _⟩ | ⟨operand, pushed, needs, missing, fails⟩ | ⟨v, settled, inside, comes⟩
      · exact ⟨.error e, by simp only [failed]⟩
      · simp only [pushed]
        apply ih (course.push needs fails) (List.forall_mem_cons.mpr ⟨missing, unknown⟩)
        simp only [List.length_cons] at enough ⊢
        omega
      · have next := course.step settled
        simp only [settled]
        apply ih next
        · intro id below
          -- The value on top is none of those below it.
          have apart : top ≠ id := by
            rintro rfl
            exact (List.nodup_cons.mp nodup).1 below
          exact (Memo.known?_setIfInBounds_ne v apart).trans (unknownBelow id below)
        · have insideMemo : top.index < memo.size := lt_of_lt_of_eq inside course.size.symm
          have fewer := Memo.card_unknowns_setIfInBounds v insideMemo isUnknown
          simp only [List.length_cons] at enough ⊢
          omega

end Evaluation

namespace Kernel

section

variable {k : Kernel} {bound : Nat → Option Value} {id : ValueId}

theorem eval?_ends (straight : ¬ k.Circular (k.Came bound) id) :
    ∃ r, k.eval? bound id = some r := by
  have course := Evaluation.start_course k bound id
  refine course.ends straight (fun other _ => Evaluation.start_blank k id other) _ ?_
  have atMost := (Evaluation.start k id).memo.card_unknowns_le
  rw [course.size] at atMost
  have single : (Evaluation.start k id).pending.length = 1 := rfl
  omega

/-- Evaluation finds what comes of a value, and only that. -/
theorem eval?_eq_some_iff {r : Except EvalError Value} :
    k.eval? bound id = some r ↔ k.Comes bound id r := by
  have course := Evaluation.start_course k bound id
  constructor
  · exact course.comes_of_run _
  · intro comes
    obtain ⟨r', ends⟩ := eval?_ends comes.not_circular
    rw [ends, (course.comes_of_run _ ends).unique comes]

end

theorem Ordered.eval?_eq {k : Kernel} (ordered : k.Ordered) (bound : Nat → Option Value)
    (id : ValueId) : k.eval? bound id = some (k.demand bound id) :=
  eval?_eq_some_iff.mpr (ordered.comes bound id)

end Kernel

end ScalarLowering
