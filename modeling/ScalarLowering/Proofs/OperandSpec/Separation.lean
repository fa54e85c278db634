import ScalarLowering.OperandSpec.Parsing
import ScalarLowering.Proofs.Text.Word

set_option autoImplicit false

/- Splitting the items of a tuple. Texts whose parentheses are balanced and
enclose all of their commas are found again in a list of them, at any depth;
a comma behind the last one adds no item. -/

namespace ScalarLowering

/-- Items with commas between them, and perhaps one more behind the last. A blank text has none. -/
inductive Separated : List Char → List (List Char) → Prop where
  | none {cs : List Char} (blank : Blank cs) : Separated cs []
  | items {pieces : List (List Char)} (nonempty : pieces ≠ []) :
    Separated ([','].intercalate pieces) pieces
  | trailing {pieces : List (List Char)} {gap : List Char} (nonempty : pieces ≠ [])
    (blank : Blank gap) : Separated ([','].intercalate pieces ++ ',' :: gap) pieces

/-- A text that leads from one nesting depth to another, with no comma outside parentheses. -/
inductive Enclosed : Nat → List Char → Nat → Prop where
  | nil {depth : Nat} : Enclosed depth [] depth
  | cons {first next last : Nat} {c : Char} {cs : List Char} (inside : first = 0 → c ≠ ',')
    (step : depthBehind? first c = some next) (rest : Enclosed next cs last) :
    Enclosed first (c :: cs) last

variable {cs rest : List Char} {pieces : List (List Char)} {d e f : Nat}

theorem depthBehind?_of_plain {c : Char} (left : c ≠ '(') (right : c ≠ ')') (d : Nat) :
    depthBehind? d c = some d := by
  unfold depthBehind?
  split <;> trivial

theorem depthBehind?_succ {c : Char} (step : depthBehind? d c = some e) :
    depthBehind? (d + 1) c = some (e + 1) := by
  by_cases left : c = '('
  · subst left
    cases step
    rfl
  · by_cases right : c = ')'
    · subst right
      cases d with
      | zero => cases step
      | succ d =>
        cases step
        rfl
    · rw [depthBehind?_of_plain left right] at step ⊢
      cases step
      rfl

namespace Enclosed

theorem append (first : Enclosed d cs e) (second : Enclosed e rest f) :
    Enclosed d (cs ++ rest) f := by
  induction first with
  | nil => exact second
  | cons inside step _ ih => exact .cons inside step (ih second)

theorem of_plain (plain : Plain cs) (d : Nat) : Enclosed d cs d := by
  induction cs with
  | nil => exact .nil
  | cons c cs ih =>
    obtain ⟨first, others⟩ := List.forall_mem_cons.mp plain
    refine .cons ?_ (depthBehind?_of_plain ?_ ?_ d) (ih others)
    · rintro - rfl
      exact first (by decide)
    · rintro rfl
      exact first (by decide)
    · rintro rfl
      exact first (by decide)

theorem deeper (enclosed : Enclosed d cs e) : Enclosed (d + 1) cs (e + 1) := by
  induction enclosed with
  | nil => exact .nil
  | cons _ step _ ih => exact .cons nofun (depthBehind?_succ step) ih

theorem parenthesize (enclosed : Enclosed 1 cs 1) : Enclosed 0 ('(' :: (cs ++ [')'])) 0 :=
  .cons (by decide) rfl (enclosed.append (.cons nofun rfl .nil))

theorem splitCommasFrom_eq (enclosed : Enclosed d cs 0) : splitCommasFrom d cs = [cs] := by
  generalize zero : 0 = last at enclosed
  induction enclosed with
  | nil => rfl
  | cons inside step _ ih =>
    have other : ¬ (_ = 0 ∧ _ = ',') := fun ⟨outside, comma⟩ => inside outside comma
    rw [splitCommasFrom, if_neg other, step, Option.getD_some, ih zero]

/-- The comma behind an enclosed text is found. -/
theorem splitCommasFrom_append (enclosed : Enclosed d cs 0) (rest : List Char) :
    splitCommasFrom d (cs ++ ',' :: rest) = cs :: splitCommasFrom 0 rest := by
  generalize zero : 0 = last at enclosed
  induction enclosed with
  | nil =>
    subst zero
    rfl
  | cons inside step _ ih =>
    have other : ¬ (_ = 0 ∧ _ = ',') := fun ⟨outside, comma⟩ => inside outside comma
    rw [List.cons_append, splitCommasFrom, if_neg other, step, Option.getD_some, ih zero]

theorem isBalancedFrom_append (enclosed : Enclosed d cs e) (rest : List Char) :
    isBalancedFrom d (cs ++ rest) = isBalancedFrom e rest := by
  induction enclosed with
  | nil => rfl
  | cons _ step _ ih =>
    rw [List.cons_append, isBalancedFrom, step]
    exact ih

end Enclosed

theorem Padded.enclosed {core : List Char} (padded : Padded core cs)
    (enclosed : Enclosed 0 core 0) : Enclosed 0 cs 0 := by
  obtain ⟨before, after, rfl, blankBefore, blankAfter⟩ := padded
  exact ((Enclosed.of_plain blankBefore.plain 0).append enclosed).append
    (.of_plain blankAfter.plain 0)

theorem splitCommasFrom_ne_nil (d : Nat) (cs : List Char) : splitCommasFrom d cs ≠ [] := by
  cases cs with
  | nil => exact List.cons_ne_nil _ _
  | cons c cs =>
    unfold splitCommasFrom
    split
    · exact List.cons_ne_nil _ _
    · split <;> exact List.cons_ne_nil _ _

/-- Splitting loses nothing but the commas. -/
theorem intercalate_splitCommasFrom (d : Nat) (cs : List Char) :
    [','].intercalate (splitCommasFrom d cs) = cs := by
  induction cs generalizing d with
  | nil => rfl
  | cons c cs ih =>
    unfold splitCommasFrom
    split
    · rename_i outside
      rw [List.intercalate_cons_of_ne_nil (splitCommasFrom_ne_nil 0 cs), ih, outside.2]
      rfl
    · have rest := ih ((depthBehind? d c).getD 0)
      split
      · rename_i piece pieces split
        rw [split] at rest
        cases pieces with
        | nil =>
          rw [List.intercalate_singleton] at rest ⊢
          rw [rest]
        | cons other pieces =>
          rw [List.intercalate_cons_cons] at rest ⊢
          rw [List.cons_append, List.cons_append, rest]
      · rename_i empty
        exact absurd empty (splitCommasFrom_ne_nil _ _)

theorem intercalate_append_singleton (nonempty : pieces ≠ []) (gap : List Char) :
    [','].intercalate (pieces ++ [gap]) = [','].intercalate pieces ++ ',' :: gap := by
  induction pieces with
  | nil => exact absurd rfl nonempty
  | cons piece pieces ih =>
    cases pieces with
    | nil => simp
    | cons other pieces =>
      rw [List.cons_append, List.cons_append, List.intercalate_cons_cons, ← List.cons_append,
        ih (List.cons_ne_nil _ _), List.intercalate_cons_cons]
      simp only [List.append_assoc]

theorem splitCommasFrom_intercalate (nonempty : pieces ≠ [])
    (enclosed : ∀ piece ∈ pieces, Enclosed 0 piece 0) :
    splitCommasFrom 0 ([','].intercalate pieces) = pieces := by
  induction pieces with
  | nil => exact absurd rfl nonempty
  | cons piece pieces ih =>
    obtain ⟨first, others⟩ := List.forall_mem_cons.mp enclosed
    cases pieces with
    | nil => rw [List.intercalate_singleton, first.splitCommasFrom_eq]
    | cons other pieces =>
      rw [List.intercalate_cons_cons, List.append_assoc, List.singleton_append,
        first.splitCommasFrom_append, ih (List.cons_ne_nil _ _) others]

/-- Behind an opening parenthesis commas are allowed. -/
theorem enclosed_intercalate (enclosed : ∀ piece ∈ pieces, Enclosed 0 piece 0) :
    Enclosed 1 ([','].intercalate pieces) 1 := by
  induction pieces with
  | nil => exact .nil
  | cons piece pieces ih =>
    obtain ⟨first, others⟩ := List.forall_mem_cons.mp enclosed
    cases pieces with
    | nil => exact List.intercalate_singleton ▸ first.deeper
    | cons other pieces =>
      rw [List.intercalate_cons_cons, List.append_assoc]
      exact first.deeper.append (.cons nofun rfl (ih others))

theorem isBalancedFrom_intercalate (enclosed : ∀ piece ∈ pieces, Enclosed 0 piece 0)
    (rest : List Char) :
    isBalancedFrom 0 ([','].intercalate pieces ++ rest) = isBalancedFrom 0 rest := by
  induction pieces with
  | nil => rfl
  | cons piece pieces ih =>
    obtain ⟨first, others⟩ := List.forall_mem_cons.mp enclosed
    cases pieces with
    | nil => rw [List.intercalate_singleton, first.isBalancedFrom_append]
    | cons other pieces =>
      rw [List.intercalate_cons_cons, List.append_assoc, List.append_assoc,
        first.isBalancedFrom_append]
      exact ih others

/-- The text between the parentheses of a tuple of enclosed items. -/
theorem Separated.enclosed (separated : Separated cs pieces)
    (enclosed : ∀ piece ∈ pieces, Enclosed 0 piece 0) : Enclosed 1 cs 1 := by
  cases separated with
  | none blank => exact .of_plain blank.plain 1
  | items => exact enclosed_intercalate enclosed
  | trailing _ blank =>
    exact (enclosed_intercalate enclosed).append (.cons nofun rfl (.of_plain blank.plain 1))

/-- All that can follow the last comma of a text is an item or a blank. -/
theorem splitItems?_of_concat {init : List (List Char)} {last : List Char} (visible : ¬ Blank cs)
    (balanced : isBalancedFrom 0 cs = true) (split : splitCommasFrom 0 cs = init ++ [last]) :
    splitItems? cs = some (if last.all isBlank then init else init ++ [last]) := by
  rw [splitItems?, if_neg (all_isBlank_iff.not.mpr visible), if_pos balanced, split]
  dsimp only
  rw [List.getLastD_concat, List.dropLast_concat]
  split <;> rfl

/-- What the splitter returns are all pieces of the text, or all but a blank at the end. -/
theorem splitItems?_cases (visible : ¬ Blank cs) (split : splitItems? cs = some pieces) :
    isBalancedFrom 0 cs = true ∧ pieces ≠ [] ∧
      (splitCommasFrom 0 cs = pieces ∧ (∀ last ∈ pieces.getLast?, ¬ Blank last) ∨
        ∃ gap, Blank gap ∧ splitCommasFrom 0 cs = pieces ++ [gap]) := by
  cases balanced : isBalancedFrom 0 cs with
  | false =>
    rw [splitItems?, if_neg (all_isBlank_iff.not.mpr visible), balanced] at split
    cases split
  | true =>
    have whole := intercalate_splitCommasFrom 0 cs
    rcases List.eq_nil_or_concat (splitCommasFrom 0 cs) with empty | ⟨init, last, parts⟩
    · exact absurd empty (splitCommasFrom_ne_nil 0 cs)
    · rw [List.concat_eq_append] at parts
      rw [splitItems?_of_concat visible balanced parts, Option.some_inj] at split
      split_ifs at split with gap
      · subst split
        refine ⟨rfl, ?_, .inr ⟨last, all_isBlank_iff.mp gap, parts⟩⟩
        rintro rfl
        rw [parts, List.nil_append, List.intercalate_singleton] at whole
        exact visible (whole ▸ all_isBlank_iff.mp gap)
      · subst split
        refine ⟨rfl, List.append_ne_nil_of_right_ne_nil init (List.cons_ne_nil last []),
          .inl ⟨parts, ?_⟩⟩
        rw [List.getLast?_concat]
        rintro _ ⟨⟩
        exact all_isBlank_iff.not.mp gap

/-- What the splitter returns is separated by the commas of the text. -/
theorem separated_of_splitItems? (split : splitItems? cs = some pieces) : Separated cs pieces := by
  by_cases blank : Blank cs
  · rw [splitItems?, if_pos (all_isBlank_iff.mpr blank)] at split
    cases split
    exact .none blank
  · have whole := intercalate_splitCommasFrom 0 cs
    obtain ⟨_, nonempty, ⟨parts, _⟩ | ⟨gap, blankGap, parts⟩⟩ := splitItems?_cases blank split
    · rw [← whole, parts]
      exact .items nonempty
    · rw [← whole, parts, intercalate_append_singleton nonempty]
      exact .trailing nonempty blankGap

theorem not_blank_of_comma (member : ',' ∈ cs) : ¬ Blank cs :=
  fun blank => absurd (blank ',' member) (by decide)

theorem not_blank_concat {last : List Char} (visible : ¬ Blank last) (init : List (List Char)) :
    ¬ Blank ([','].intercalate (init ++ [last])) := by
  by_cases alone : init = []
  · rw [alone, List.nil_append, List.intercalate_singleton]
    exact visible
  · apply not_blank_of_comma
    rw [intercalate_append_singleton alone]
    exact List.mem_append_right _ List.mem_cons_self

/-- Enclosed pieces are found again, up to a blank at the end. -/
theorem splitItems?_concat {init : List (List Char)} {last : List Char}
    (enclosed : ∀ piece ∈ init ++ [last], Enclosed 0 piece 0)
    (visible : ¬ Blank ([','].intercalate (init ++ [last]))) :
    splitItems? ([','].intercalate (init ++ [last])) =
      some (if last.all isBlank then init else init ++ [last]) := by
  have balanced := isBalancedFrom_intercalate enclosed []
  rw [List.append_nil] at balanced
  have split := splitCommasFrom_intercalate
    (List.append_ne_nil_of_right_ne_nil init (List.cons_ne_nil last [])) enclosed
  exact splitItems?_of_concat visible balanced split

theorem splitItems?_trailing {gap : List Char} (nonempty : pieces ≠ [])
    (enclosed : ∀ piece ∈ pieces, Enclosed 0 piece 0) (blank : Blank gap) :
    splitItems? ([','].intercalate pieces ++ ',' :: gap) = some pieces := by
  have all : ∀ piece ∈ pieces ++ [gap], Enclosed 0 piece 0 :=
    List.forall_mem_append.mpr ⟨enclosed, List.forall_mem_singleton.mpr (.of_plain blank.plain 0)⟩
  have comma : ',' ∈ [','].intercalate pieces ++ ',' :: gap :=
    List.mem_append_right _ List.mem_cons_self
  rw [← intercalate_append_singleton nonempty] at comma ⊢
  rw [splitItems?_concat all (not_blank_of_comma comma), if_pos (all_isBlank_iff.mpr blank)]

/-- The splitter finds the items, however deep their own parentheses nest. -/
theorem Separated.splitItems?_eq (separated : Separated cs pieces)
    (enclosed : ∀ piece ∈ pieces, Enclosed 0 piece 0)
    (visible : ∀ piece ∈ pieces, ¬ Blank piece) : splitItems? cs = some pieces := by
  cases separated with
  | none blank => rw [splitItems?, if_pos (all_isBlank_iff.mpr blank)]
  | items nonempty =>
    rcases List.eq_nil_or_concat pieces with empty | ⟨init, last, parts⟩
    · exact absurd empty nonempty
    · rw [List.concat_eq_append] at parts
      subst parts
      have seen : ¬ Blank last := visible last (by simp)
      rw [splitItems?_concat enclosed (not_blank_concat seen init),
        if_neg (all_isBlank_iff.not.mpr seen)]
  | trailing nonempty blank => exact splitItems?_trailing nonempty enclosed blank

end ScalarLowering
