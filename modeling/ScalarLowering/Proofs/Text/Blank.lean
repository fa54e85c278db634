import Mathlib.Data.List.DropRight
import ScalarLowering.Text.Blank

set_option autoImplicit false

/- Trimming. What is left of a text is the one part of it with only blanks on
both sides and no blank at its own ends. -/

namespace ScalarLowering

/-- Only blanks. -/
def Blank (cs : List Char) : Prop := ∀ c ∈ cs, isBlank c = true

/-- `cs` is `core` with blanks around it. -/
def Padded (core cs : List Char) : Prop :=
  ∃ before after, cs = before ++ core ++ after ∧ Blank before ∧ Blank after

/-- No blank stands at either end. -/
structure Bare (cs : List Char) : Prop where
  first : ∀ c ∈ cs.head?, isBlank c = false
  last : ∀ c ∈ cs.getLast?, isBlank c = false

variable {core cs before after : List Char}

theorem all_isBlank_iff : cs.all isBlank = true ↔ Blank cs := List.all_eq_true

theorem Blank.nil : Blank [] := nofun

theorem Padded.refl (cs : List Char) : Padded cs cs :=
  ⟨[], [], (List.append_nil cs).symm, .nil, .nil⟩

/-- Padding adds only blanks. -/
theorem Padded.mem_core (padded : Padded core cs) {c : Char} (visible : isBlank c = false)
    (member : c ∈ cs) : c ∈ core := by
  obtain ⟨before, after, rfl, blankBefore, blankAfter⟩ := padded
  have not_blank {blanks : List Char} (blank : Blank blanks) : c ∉ blanks := by
    intro inside
    rw [blank c inside] at visible
    cases visible
  rcases List.mem_append.mp member with inside | inside
  · exact (List.mem_append.mp inside).resolve_left (not_blank blankBefore)
  · exact absurd inside (not_blank blankAfter)

/-- A text without any blank is bare. -/
theorem Bare.of_none (none : ∀ c ∈ cs, isBlank c = false) : Bare cs :=
  ⟨fun c member => none c (List.mem_of_mem_head? member),
    fun c member => none c (List.mem_of_mem_getLast? member)⟩

/-- Only the ends matter. -/
theorem Bare.around {cs ds : List Char} (left : Bare cs) (right : Bare ds) (nonemptyLeft : cs ≠ [])
    (nonemptyRight : ds ≠ []) (middle : List Char) : Bare (cs ++ middle ++ ds) where
  first := by
    obtain ⟨c, rest, rfl⟩ := List.exists_cons_of_ne_nil nonemptyLeft
    exact left.first
  last := by
    rw [List.getLast?_append_of_ne_nil _ nonemptyRight]
    exact right.last

/-- Blanks in front of a text leave it bare only if there are none. -/
theorem Bare.before_eq_nil (bare : Bare (before ++ cs)) (blank : Blank before) : before = [] := by
  cases before with
  | nil => rfl
  | cons c rest =>
    have visible := bare.first c (by simp)
    rw [blank c List.mem_cons_self] at visible
    cases visible

theorem Bare.after_eq_nil (bare : Bare (cs ++ after)) (blank : Blank after) : after = [] := by
  cases h : after.getLast? with
  | none => exact List.getLast?_eq_none_iff.mp h
  | some c =>
    have visible := bare.last c (by rw [List.getLast?_append, h]; rfl)
    rw [blank c (List.mem_of_getLast? h)] at visible
    cases visible

theorem trimBlanks_eq_rdropWhile (cs : List Char) :
    trimBlanks cs = (cs.dropWhile isBlank).rdropWhile isBlank := rfl

theorem dropWhile_isBlank_append (blank : Blank before) :
    (before ++ cs).dropWhile isBlank = cs.dropWhile isBlank :=
  List.dropWhile_append_of_pos blank

theorem rdropWhile_isBlank_append (blank : Blank after) :
    (cs ++ after).rdropWhile isBlank = cs.rdropWhile isBlank := by
  have reversed : Blank after.reverse := fun c member => blank c (List.mem_reverse.mp member)
  rw [List.rdropWhile, List.reverse_append, dropWhile_isBlank_append reversed, List.rdropWhile]

theorem Bare.dropWhile_append (bare : Bare cs) (nonempty : cs ≠ []) (rest : List Char) :
    (cs ++ rest).dropWhile isBlank = cs ++ rest := by
  cases cs with
  | nil => exact absurd rfl nonempty
  | cons c tail =>
    have visible : isBlank c = false := bare.first c rfl
    rw [List.cons_append, List.dropWhile_cons_of_neg (by simp [visible])]

theorem Bare.rdropWhile_eq (bare : Bare cs) : cs.rdropWhile isBlank = cs := by
  rw [List.rdropWhile_eq_self_iff]
  intro nonempty
  rw [bare.last _ (List.getLast?_eq_some_getLast nonempty)]
  exact Bool.false_ne_true

theorem bare_trimBlanks (cs : List Char) : Bare (trimBlanks cs) where
  first := by
    intro c member
    obtain ⟨rest, whole⟩ := List.rdropWhile_prefix isBlank (cs.dropWhile isBlank)
    have head : (cs.dropWhile isBlank).head? = some c := by
      rw [← whole, List.head?_append, ← trimBlanks_eq_rdropWhile, Option.mem_def.mp member]
      rfl
    have visible := List.head?_dropWhile_not isBlank cs
    rwa [head] at visible
  last := by
    intro c member
    have nonempty : trimBlanks cs ≠ [] := List.ne_nil_of_mem (List.mem_of_getLast? member)
    have visible := List.rdropWhile_last_not isBlank (cs.dropWhile isBlank) nonempty
    rw [List.getLast?_eq_some_getLast nonempty, Option.mem_some_iff] at member
    rw [← member]
    exact Bool.eq_false_iff.mpr visible

theorem padded_trimBlanks (cs : List Char) : Padded (trimBlanks cs) cs := by
  refine ⟨cs.takeWhile isBlank, (cs.dropWhile isBlank).rtakeWhile isBlank, ?_, ?_, ?_⟩
  · rw [trimBlanks_eq_rdropWhile, List.append_assoc, List.rdropWhile_append_rtakeWhile,
      List.takeWhile_append_dropWhile]
  · exact fun c member => List.mem_takeWhile_imp member
  · exact fun c member => List.mem_rtakeWhile_imp member

/-- Trimming gives the one bare text that `cs` pads. -/
theorem trimBlanks_eq_iff : trimBlanks cs = core ↔ Bare core ∧ Padded core cs := by
  constructor
  · rintro rfl
    exact ⟨bare_trimBlanks cs, padded_trimBlanks cs⟩
  · rintro ⟨bare, before, after, rfl, blankBefore, blankAfter⟩
    rw [trimBlanks_eq_rdropWhile, List.append_assoc, dropWhile_isBlank_append blankBefore]
    by_cases empty : core = []
    · subst empty
      rw [List.nil_append, List.dropWhile_eq_nil_iff.mpr blankAfter, List.rdropWhile_nil]
    · rw [bare.dropWhile_append empty, rdropWhile_isBlank_append blankAfter, bare.rdropWhile_eq]

theorem Bare.trimBlanks_eq (bare : Bare cs) : trimBlanks cs = cs :=
  trimBlanks_eq_iff.mpr ⟨bare, [], [], (List.append_nil cs).symm, .nil, .nil⟩

theorem trimBlanks_eq_nil_iff : trimBlanks cs = [] ↔ Blank cs := by
  rw [trimBlanks_eq_iff]
  constructor
  · rintro ⟨_, before, after, rfl, blankBefore, blankAfter⟩
    rw [List.append_nil]
    exact List.forall_mem_append.mpr ⟨blankBefore, blankAfter⟩
  · exact fun blank => ⟨.of_none nofun, cs, [], by simp, blank, .nil⟩

end ScalarLowering
