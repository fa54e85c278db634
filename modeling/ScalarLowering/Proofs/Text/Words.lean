import ScalarLowering.Proofs.Text.Word

set_option autoImplicit false

/- Texts as sequences of words. Separators end words and belong to none, so the
words of a text are those of its parts wherever the parts meet at a separator. -/

namespace ScalarLowering

/-- Characters that stand in no word. -/
def separates (c : Char) : Bool := decide ¬(c.isAlphanum = true ∨ c ∈ ['.', '+', '-', '?'])

/-- The words of a text, in order. -/
def wordsOf (cs : List Char) : List (List Char) :=
  (cs.splitOnP separates).filter (· ≠ [])

example : wordsOf "%2 = cast %0".toList = ["2".toList, "cast".toList, "0".toList] := by decide

/-- A nonempty text of separators. -/
structure Gap (cs : List Char) : Prop where
  nonempty : cs ≠ []
  separators : ∀ c ∈ cs, separates c = true

/-- A text with a separator at its end. -/
def Ends (cs : List Char) : Prop := cs.getLast?.any separates = true

instance (cs : List Char) : Decidable (Gap cs) :=
  decidable_of_iff (cs ≠ [] ∧ cs.all separates = true)
    ⟨fun ⟨nonempty, all⟩ => ⟨nonempty, List.all_eq_true.mp all⟩,
      fun gap => ⟨gap.nonempty, List.all_eq_true.mpr gap.separators⟩⟩

instance (cs : List Char) : Decidable (Ends cs) := inferInstanceAs (Decidable (_ = true))

variable {cs ds gap : List Char} {c : Char}

theorem wordsOf_nil : wordsOf [] = [] := by decide

/-- No word goes on behind a separator. -/
theorem wordsOf_append_cons (cs ds : List Char) (separator : separates c = true) :
    wordsOf (cs ++ c :: ds) = wordsOf cs ++ wordsOf ds := by
  rw [wordsOf, List.splitOnP_append_cons cs ds separator, List.filter_append]
  rfl

theorem wordsOf_gap_append (ds : List Char) (separators : ∀ c ∈ gap, separates c = true) :
    wordsOf (gap ++ ds) = wordsOf ds := by
  induction gap with
  | nil => rfl
  | cons c rest ih =>
    obtain ⟨separator, others⟩ := List.forall_mem_cons.mp separators
    have cut := wordsOf_append_cons [] (rest ++ ds) separator
    rw [List.nil_append, wordsOf_nil, List.nil_append] at cut
    rw [List.cons_append, cut, ih others]

/-- The words on both sides of a gap are kept apart. -/
theorem wordsOf_between (cs ds : List Char) (between : Gap gap) :
    wordsOf (cs ++ gap ++ ds) = wordsOf cs ++ wordsOf ds := by
  obtain ⟨c, rest, rfl⟩ := List.exists_cons_of_ne_nil between.nonempty
  obtain ⟨separator, others⟩ := List.forall_mem_cons.mp between.separators
  rw [List.append_assoc, List.cons_append, wordsOf_append_cons cs _ separator,
    wordsOf_gap_append ds others]

theorem wordsOf_before (cs : List Char) (behind : Gap gap) :
    wordsOf (cs ++ gap) = wordsOf cs := by
  have cut := wordsOf_between cs [] behind
  rwa [List.append_nil, wordsOf_nil, List.append_nil] at cut

/-- The words of a text follow those of what is put before it. -/
theorem wordsOf_lead (ends : Ends cs) (ds : List Char) :
    wordsOf (cs ++ ds) = wordsOf cs ++ wordsOf ds := by
  obtain ⟨last, found, separator⟩ := (Option.any_eq_true _ _).mp ends
  obtain ⟨front, rfl⟩ := List.getLast?_eq_some_iff.mp found
  have blank : Gap [last] := ⟨List.cons_ne_nil _ _, List.forall_mem_singleton.mpr separator⟩
  rw [wordsOf_between front ds blank, wordsOf_before front blank]

theorem Ends.append (ends : Ends ds) (cs : List Char) : Ends (cs ++ ds) := by
  obtain ⟨last, found, separator⟩ := (Option.any_eq_true _ _).mp ends
  obtain ⟨front, rfl⟩ := List.getLast?_eq_some_iff.mp found
  simpa [Ends] using separator

theorem Word.wordsOf_eq (word : Word cs) : wordsOf cs = [cs] := by
  have inside : ∀ c ∈ cs, separates c = false :=
    fun c member => decide_eq_false (not_not_intro (word.char c member))
  rw [wordsOf, List.splitOnP_eq_singleton inside, List.filter_cons_of_pos (by simp [word.nonempty]),
    List.filter_nil]

theorem wordsOf_intercalate (between : Gap gap) (parts : List (List Char)) :
    wordsOf (gap.intercalate parts) = parts.flatMap wordsOf := by
  induction parts with
  | nil => exact wordsOf_nil
  | cons part rest ih =>
    cases rest with
    | nil => simp
    | cons next others =>
      rw [List.intercalate_cons_cons, List.append_assoc, ← List.append_assoc,
        wordsOf_between _ _ between, ih]
      rfl

end ScalarLowering
