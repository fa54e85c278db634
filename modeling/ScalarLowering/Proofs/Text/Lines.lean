import ScalarLowering.Decimal
import ScalarLowering.Proofs.Text.Word

set_option autoImplicit false

/- Texts made of lines, and texts that can stand inside a line. -/

namespace ScalarLowering

/-- The lines of a text in which a line break ends each line. -/
def linesOf (text : String) : List String :=
  ((text.toList.splitOn '\n').dropLast).map String.ofList

theorem toList_join_lines (lines : List String) :
    (String.join (lines.map (· ++ "\n"))).toList =
      ['\n'].intercalate (lines.map String.toList ++ [[]]) := by
  induction lines with
  | nil => rfl
  | cons line rest ih =>
    rw [String.toList_join] at ih ⊢
    rw [List.map_cons, List.flatMap_cons, ih, String.toList_append]
    cases rest with
    | nil => simp
    | cons next others => simp [List.intercalate_cons_cons]

theorem linesOf_join {lines : List String} (single : ∀ line ∈ lines, '\n' ∉ line.toList) :
    linesOf (String.join (lines.map (· ++ "\n"))) = lines := by
  have pieces : ∀ piece ∈ lines.map String.toList ++ [[]], '\n' ∉ piece := by
    intro piece member
    rcases List.mem_append.mp member with listed | last
    · obtain ⟨line, inside, rfl⟩ := List.mem_map.mp listed
      exact single line inside
    · rw [List.mem_singleton.mp last]
      exact List.not_mem_nil
  rw [linesOf, toList_join_lines, List.splitOn_intercalate '\n' pieces (by simp),
    List.dropLast_concat, List.map_map]
  exact (List.map_congr_left fun line _ => String.ofList_toList).trans (List.map_id _)

example : linesOf "result: %0 : bool\nvalue: true\n" = ["result: %0 : bool", "value: true"] := rfl

/-- Characters that can stand inside a line, without the mark that stands before symbols. -/
def InLine (cs : List Char) : Prop := ∀ c ∈ cs, c ≠ '\n' ∧ c ≠ '@'

instance (cs : List Char) : Decidable (InLine cs) :=
  List.decidableBAll (p := fun c => c ≠ '\n' ∧ c ≠ '@') cs

section

variable {cs ds : List Char} {c : Char}

@[simp] theorem inLine_nil : InLine [] := List.forall_mem_nil _

@[simp] theorem inLine_cons : InLine (c :: cs) ↔ (c ≠ '\n' ∧ c ≠ '@') ∧ InLine cs :=
  List.forall_mem_cons

@[simp] theorem inLine_append : InLine (cs ++ ds) ↔ InLine cs ∧ InLine ds :=
  List.forall_mem_append

theorem inLine_intercalate {parts : List (List Char)} (separator : InLine cs)
    (each : ∀ part ∈ parts, InLine part) : InLine (cs.intercalate parts) := by
  induction parts with
  | nil => exact inLine_nil
  | cons part rest ih =>
    obtain ⟨first, others⟩ := List.forall_mem_cons.mp each
    cases rest with
    | nil => simpa using first
    | cons next more =>
      rw [List.intercalate_cons_cons, inLine_append, inLine_append]
      exact ⟨⟨first, separator⟩, ih others⟩

theorem InLine.sublist (inLine : InLine cs) (part : ds.Sublist cs) : InLine ds :=
  fun c member => inLine c (part.mem member)

theorem Word.inLine (word : Word cs) : InLine cs := by
  intro c member
  rcases word.char c member with alphanumeric | listed
  · have code := isAlphanum_iff.mp alphanumeric
    constructor <;> rintro rfl <;> revert code <;> decide
  · have other : ∀ c ∈ ['.', '+', '-', '?'], c ≠ '\n' ∧ c ≠ '@' := forall_mem_of_all (by decide)
    exact other c listed

theorem InLine.not_mem (inLine : InLine cs) : '\n' ∉ cs := fun member => (inLine '\n' member).1 rfl

@[simp] theorem inLine_toDigits (n : Nat) : InLine (Nat.toDigits 10 n) := by
  intro c member
  have code := isDigit_iff.mp (Nat.isDigit_of_mem_toDigits (by decide) (by decide) member)
  constructor <;> rintro rfl <;> revert code <;> decide

@[simp] theorem inLine_replicate_zero (n : Nat) : InLine (List.replicate n '0') := by
  intro c member
  rw [List.eq_of_mem_replicate member]
  decide

@[simp] theorem inLine_toString (n : Nat) : InLine (toString n).toList := by
  rw [Nat.toString_eq_repr, Nat.toList_repr]
  exact inLine_toDigits n

@[simp] theorem inLine_intChars (i : Int) : InLine (intChars i) := by
  rw [intChars]
  split <;> simp

@[simp] theorem Decimal.inLine_chars (d : Decimal) : InLine d.chars := by
  have whole : InLine d.digits := inLine_toDigits d.coefficient
  have first (n : Nat) : InLine (d.digits.take n) := whole.sublist (List.take_sublist n _)
  have rest (n : Nat) : InLine (d.digits.drop n) := whole.sublist (List.drop_sublist n _)
  rw [chars]
  split
  · rw [positional]
    split_ifs <;> simp [whole, first, rest]
  · rw [scientific]
    split_ifs <;> simp [first, whole.sublist (List.tail_sublist _)]

end

end ScalarLowering
