import ScalarLowering.Kernel.Builder
import ScalarLowering.Proofs.Evaluation.WorkList

set_option autoImplicit false

/- When an evaluation does not end. Operands that are not defined when they are
recorded may come to name the instruction itself or a later one, so that a value
can need itself; nothing else keeps an evaluation from ending. -/

namespace ScalarLowering

namespace Kernel

variable {k : Kernel} {bound : Nat → Option Value} {id : ValueId}

/-- Evaluation ends with the value `v` for `id`. -/
def Computes (k : Kernel) (bound : Nat → Option Value) (id : ValueId) (v : Value) : Prop :=
  k.eval? bound id = some (.ok v)

theorem computes_eq_came (k : Kernel) (bound : Nat → Option Value) :
    k.Computes bound = k.Came bound :=
  funext fun _ => funext fun _ => propext eval?_eq_some_iff

/-- A way around has a step that does not lead to an earlier position. -/
theorem exists_forward {came : ValueId → Value → Prop} {other : ValueId}
    (leads : Relation.TransGen (k.Needs came) id other) : other.index < id.index ∨
      ∃ a b, Relation.ReflTransGen (k.Needs came) id a ∧ k.Needs came a b ∧
        Relation.ReflTransGen (k.Needs came) b other ∧ a.index ≤ b.index := by
  induction leads with
  | @single b needs =>
    by_cases backward : b.index < id.index
    · exact Or.inl backward
    · exact Or.inr ⟨id, b, .refl, needs, .refl, Nat.le_of_not_lt backward⟩
  | @tail b c path needs ih =>
    rcases ih with earlier | ⟨a, next, before, step, after, forward⟩
    · by_cases backward : c.index < b.index
      · exact Or.inl (backward.trans earlier)
      · exact Or.inr ⟨b, c, path.to_reflTransGen, needs, .refl, Nat.le_of_not_lt backward⟩
    · exact Or.inr ⟨a, next, before, step, after.tail needs, forward⟩

/-- Evaluation has no end exactly if it comes to need a value that needs itself, and the limit on
its steps shows that. On the way around, some instruction refers to itself or to a later one. -/
theorem eval?_endless_iff_circular (k : Kernel) (bound : Nat → Option Value) (id : ValueId) :
    ((∀ fuel, Evaluation.run k bound id fuel (.start k id) = none) ↔
        k.Circular (k.Computes bound) id) ∧
      (k.eval? bound id = none ↔ ∀ fuel, Evaluation.run k bound id fuel (.start k id) = none) ∧
      ∀ other, Relation.TransGen (k.Needs (k.Computes bound)) other other →
        ∃ a b, Relation.ReflTransGen (k.Needs (k.Computes bound)) other a ∧
          k.Needs (k.Computes bound) a b ∧
          Relation.ReflTransGen (k.Needs (k.Computes bound)) b other ∧
          a.index ≤ b.index ∧ b.index < k.size := by
  have course := Evaluation.start_course k bound id
  have circular (endless : k.eval? bound id = none) : k.Circular (k.Computes bound) id := by
    rw [computes_eq_came]
    by_contra straight
    obtain ⟨r, ends⟩ := eval?_ends straight
    rw [endless] at ends
    cases ends
  have endless (circular : k.Circular (k.Computes bound) id) (fuel : Nat) :
      Evaluation.run k bound id fuel (.start k id) = none := by
    rw [computes_eq_came] at circular
    rw [Option.eq_none_iff_forall_ne_some]
    intro r ends
    exact (course.comes_of_run fuel ends).not_circular circular
  refine ⟨⟨fun none => circular (none _), endless⟩, ⟨fun none => endless (circular none),
    fun none => none _⟩, ?_⟩
  intro other around
  obtain ⟨a, b, before, needs, after, forward⟩ :=
    (exists_forward around).resolve_left (Nat.lt_irrefl _)
  exact ⟨a, b, before, needs, after, forward,
    Evaluation.index_lt_of_needs (Relation.TransGen.trans_right after around)⟩

/-- A negation that refers to itself, since the operand is not defined when it is recorded. -/
theorem negation_of_itself_endless : ∃ k, (Build.neg ⟨0⟩).run .empty = .ok (⟨0⟩, k) ∧
    ∀ bound fuel, Evaluation.run k bound ⟨0⟩ fuel (.start k ⟨0⟩) = none := by
  refine ⟨⟨#[⟨⟨0⟩, .scalar .int64, .neg ⟨0⟩⟩], 0⟩, rfl, ?_⟩
  intro bound fuel
  -- Each step puts the same value on top again.
  have stuck (rest : List ValueId) :
      Evaluation.run ⟨#[⟨⟨0⟩, .scalar .int64, .neg ⟨0⟩⟩], 0⟩ bound ⟨0⟩ fuel
        ⟨#[none], ⟨0⟩ :: rest⟩ = none := by
    induction fuel generalizing rest with
    | zero => rfl
    | succ fuel ih => exact ih (⟨0⟩ :: rest)
  exact stuck []

end Kernel

end ScalarLowering
