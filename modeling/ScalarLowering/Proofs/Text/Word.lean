import ScalarLowering.Proofs.Text.Blank

set_option autoImplicit false

/- Words: texts without blanks, parentheses, commas, equals signs and brackets,
which are all that stands between the words of a larger text. -/

namespace ScalarLowering

theorem isUpper_iff {c : Char} : c.isUpper = true ↔ 65 ≤ c.toNat ∧ c.toNat ≤ 90 :=
  decide_eq_true_iff

theorem isLower_iff {c : Char} : c.isLower = true ↔ 97 ≤ c.toNat ∧ c.toNat ≤ 122 := by
  change (decide ('a'.val ≤ c.val) && decide (c.val ≤ 'z'.val)) = true ↔ _
  rw [Bool.and_eq_true, decide_eq_true_eq, decide_eq_true_eq]
  rfl

theorem isDigit_iff {c : Char} : c.isDigit = true ↔ 48 ≤ c.toNat ∧ c.toNat ≤ 57 := by
  change (decide ('0'.val ≤ c.val) && decide (c.val ≤ '9'.val)) = true ↔ _
  rw [Bool.and_eq_true, decide_eq_true_eq, decide_eq_true_eq]
  rfl

theorem isAlpha_iff {c : Char} : c.isAlpha = true ↔
    (65 ≤ c.toNat ∧ c.toNat ≤ 90) ∨ (97 ≤ c.toNat ∧ c.toNat ≤ 122) := by
  change (c.isUpper || c.isLower) = true ↔ _
  rw [Bool.or_eq_true, isUpper_iff, isLower_iff]

theorem isAlphanum_iff {c : Char} : c.isAlphanum = true ↔
    ((65 ≤ c.toNat ∧ c.toNat ≤ 90) ∨ (97 ≤ c.toNat ∧ c.toNat ≤ 122)) ∨
      (48 ≤ c.toNat ∧ c.toNat ≤ 57) := by
  change (c.isAlpha || c.isDigit) = true ↔ _
  rw [Bool.or_eq_true, isAlpha_iff, isDigit_iff]

theorem isAlpha_of_isDigit {c : Char} (digit : c.isDigit = true) : c.isAlpha = false := by
  refine Bool.eq_false_iff.mpr fun alpha => ?_
  have code := isDigit_iff.mp digit
  have other := isAlpha_iff.mp alpha
  omega

/-- Lowering the case changes only upper case letters. -/
theorem isUpper_or_toLower_eq (c : Char) : c.isUpper = true ∨ c.toLower = c := by
  by_cases upper : c.val ≥ 'A'.val ∧ c.val ≤ 'Z'.val
  · exact .inl (decide_eq_true upper)
  · exact .inr (dif_neg upper)

theorem isAlpha_of_toLower {c : Char} (lower : c.toLower.isAlpha = true) : c.isAlpha = true := by
  rcases isUpper_or_toLower_eq c with upper | same
  · exact isAlpha_iff.mpr (.inl (isUpper_iff.mp upper))
  · rwa [same] at lower

theorem isAlphanum_of_toLower {c : Char} (lower : c.toLower.isAlphanum = true) :
    c.isAlphanum = true := by
  rcases isUpper_or_toLower_eq c with upper | same
  · exact isAlphanum_iff.mpr (.inl (.inl (isUpper_iff.mp upper)))
  · rwa [same] at lower

theorem isBlank_of_isAlphanum {c : Char} (alphanumeric : c.isAlphanum = true) :
    isBlank c = false := by
  have apart : ∀ range ∈ blankRanges, range.2 < 48 ∨ 122 < range.1 := by decide
  refine Bool.eq_false_iff.mpr fun blank => ?_
  obtain ⟨range, member, inside⟩ := List.any_eq_true.mp blank
  rw [Bool.and_eq_true, decide_eq_true_eq, decide_eq_true_eq] at inside
  have code := isAlphanum_iff.mp alphanumeric
  have outside := apart range member
  omega

variable {cs : List Char}

/-- A list is checked character by character. The statement itself is not to be decided: there are
finitely many characters, and that could mean to run through all of them. -/
theorem forall_mem_of_all {p : Char → Prop} [DecidablePred p]
    (all : cs.all (fun c => decide (p c)) = true) : ∀ c ∈ cs, p c :=
  fun c member => of_decide_eq_true (List.all_eq_true.mp all c member)

/-- A nonempty text of letters, digits, points, signs and question marks. -/
structure Word (cs : List Char) : Prop where
  nonempty : cs ≠ []
  char : ∀ c ∈ cs, c.isAlphanum = true ∨ c ∈ ['.', '+', '-', '?']

instance (cs : List Char) : Decidable (Word cs) :=
  decidable_of_iff
    (cs ≠ [] ∧ cs.all (fun c => decide (c.isAlphanum = true ∨ c ∈ ['.', '+', '-', '?'])) = true)
    ⟨fun ⟨nonempty, all⟩ => ⟨nonempty, forall_mem_of_all all⟩, fun word =>
      ⟨word.nonempty, List.all_eq_true.mpr fun c member => decide_eq_true (word.char c member)⟩⟩

/-- What words are set apart by, besides blanks. -/
def separators : List Char := ['(', ')', ',', '=', '[', ']']

namespace Word

theorem visible (word : Word cs) : ∀ c ∈ cs, isBlank c = false := by
  intro c member
  rcases word.char c member with alphanumeric | listed
  · exact isBlank_of_isAlphanum alphanumeric
  · have visible : ∀ c ∈ ['.', '+', '-', '?'], isBlank c = false := forall_mem_of_all (by decide)
    exact visible c listed

theorem bare (word : Word cs) : Bare cs := .of_none word.visible

theorem not_mem (word : Word cs) {c : Char} (separator : c ∈ separators) : c ∉ cs := by
  intro member
  rcases word.char c member with alphanumeric | listed
  · have other : ∀ c ∈ separators, c.isAlphanum = false := forall_mem_of_all (by decide)
    rw [other c separator] at alphanumeric
    cases alphanumeric
  · have other : ∀ c ∈ ['.', '+', '-', '?'], c ∉ separators := forall_mem_of_all (by decide)
    exact other c listed separator

end Word

/-- Without parentheses and commas. -/
def Plain (cs : List Char) : Prop := ∀ c ∈ cs, c ∉ ['(', ')', ',']

theorem Word.plain (word : Word cs) : Plain cs := by
  intro c member mark
  have separator : ∀ c ∈ ['(', ')', ','], c ∈ separators := forall_mem_of_all (by decide)
  exact word.not_mem (separator c mark) member

theorem Plain.append {ds : List Char} (first : Plain cs) (second : Plain ds) : Plain (cs ++ ds) :=
  List.forall_mem_append.mpr ⟨first, second⟩

theorem Padded.plain {core : List Char} (padded : Padded core cs) (plain : Plain core) :
    Plain cs := by
  intro c member mark
  have visible : ∀ c ∈ ['(', ')', ','], isBlank c = false := forall_mem_of_all (by decide)
  exact plain c (padded.mem_core (visible c mark) member) mark

theorem Blank.plain (blank : Blank cs) : Plain cs :=
  Padded.plain ⟨cs, [], by simp, blank, .nil⟩ (List.forall_mem_nil _)

end ScalarLowering
