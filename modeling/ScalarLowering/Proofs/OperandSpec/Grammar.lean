import ScalarLowering.Proofs.OperandSpec.Leaf
import ScalarLowering.Proofs.OperandSpec.Separation

set_option autoImplicit false

/- The grammar of operands. The parser accepts exactly the texts that the
grammar derives with few enough levels of tuples, and refuses all deeper ones
for their depth. -/

namespace ScalarLowering

namespace OperandSpec

mutual

/-- How many levels of tuples an operand has. -/
def depth : OperandSpec → Nat
  | .tuple items => depthAll items + 1
  | .literal _ => 0
  | .param _ _ => 0
  | .array _ => 0

def depthAll : List OperandSpec → Nat
  | [] => 0
  | spec :: specs => max spec.depth (depthAll specs)

end

/-- The operand that a text describes. Blanks may stand around every operand, also around the
items of a tuple. -/
inductive Describes : List Char → OperandSpec → Prop where
  | leaf {text cs : List Char} {spec : OperandSpec} (padded : Padded text cs)
    (leaf : LeafText text spec) : Describes cs spec
  | tuple {body cs : List Char} {parts : List (List Char × OperandSpec)}
    (padded : Padded ('(' :: (body ++ [')'])) cs) (separated : Separated body (parts.map (·.1)))
    (items : ∀ part ∈ parts, Describes part.1 part.2) :
    Describes cs (.tuple (parts.map (·.2)))

variable {cs text : List Char} {spec : OperandSpec}

theorem bare_parentheses (body : List Char) : Bare ('(' :: (body ++ [')'])) :=
  .around (.of_none (forall_mem_of_all (by decide))) (.of_none (forall_mem_of_all (by decide)))
    (List.cons_ne_nil '(' []) (List.cons_ne_nil ')' []) body

theorem depth_of_leafText (leaf : LeafText text spec) : spec.depth = 0 := by
  cases leaf <;> rw [depth]

/-- An operand is never blank. -/
theorem Describes.not_blank (describes : Describes cs spec) : ¬ Blank cs := by
  rw [← trimBlanks_eq_nil_iff]
  cases describes with
  | leaf padded leaf =>
    rw [trimBlanks_eq_iff.mpr ⟨leaf.bare, padded⟩]
    exact leaf.ne_nil
  | tuple padded =>
    rw [trimBlanks_eq_iff.mpr ⟨bare_parentheses _, padded⟩]
    exact List.cons_ne_nil _ _

/-- Its parentheses are balanced and enclose all its commas. -/
theorem Describes.enclosed (describes : Describes cs spec) : Enclosed 0 cs 0 := by
  induction describes with
  | leaf padded leaf => exact padded.enclosed (.of_plain leaf.plain 0)
  | tuple padded separated _ ih =>
    refine padded.enclosed (Enclosed.parenthesize (separated.enclosed ?_))
    exact List.forall_mem_map.mpr ih

theorem mapM_within {levels : Nat} {parts : List (List Char × OperandSpec)}
    (each : ∀ part ∈ parts, parseWithin levels part.1 =
      if part.2.depth ≤ levels then .ok part.2 else .error .tooDeep) :
    (parts.map (·.1)).mapM (parseWithin levels) =
      if depthAll (parts.map (·.2)) ≤ levels then .ok (parts.map (·.2)) else .error .tooDeep := by
  induction parts with
  | nil => rfl
  | cons part parts ih =>
    obtain ⟨first, others⟩ := List.forall_mem_cons.mp each
    rw [List.map_cons, List.map_cons, List.mapM_cons, first, ih others, depthAll]
    by_cases fits : part.2.depth ≤ levels
    · by_cases fit : depthAll (parts.map (·.2)) ≤ levels
      · rw [if_pos fits, if_pos fit, if_pos (Nat.max_le.mpr ⟨fits, fit⟩)]
        rfl
      · rw [if_pos fits, if_neg fit, if_neg fun both => fit (Nat.max_le.mp both).2]
        rfl
    · rw [if_neg fits, if_neg fun both => fits (Nat.max_le.mp both).1]
      rfl

theorem parseWithin_zero_of_tuple {rest : List Char} (trimmed : trimBlanks cs = '(' :: rest) :
    parseWithin 0 cs = .error .tooDeep := by
  rw [parseWithin, trimmed]
  rfl

theorem parseWithin_succ_of_tuple {rest : List Char} (trimmed : trimBlanks cs = '(' :: rest)
    (levels : Nat) :
    parseWithin (levels + 1) cs =
      match (beforeLast? ')' rest).bind splitItems? with
      | none => .error (.unbalanced (String.ofList ('(' :: rest)))
      | some items => (items.mapM (parseWithin levels)).map .tuple := by
  rw [parseWithin, trimmed]
  rfl

theorem parseWithin_of_other {c : Char} {rest : List Char} (trimmed : trimBlanks cs = c :: rest)
    (other : c ≠ '(') (levels : Nat) : parseWithin levels cs = parseLeaf (c :: rest) := by
  unfold parseWithin
  rw [trimmed]
  split
  · cases ‹c :: rest = []›
  · rename_i same
    exact absurd (List.cons.inj same).1 other
  · rfl

theorem parseWithin_of_leaf (padded : Padded text cs) (leaf : LeafText text spec) (levels : Nat) :
    parseWithin levels cs = .ok spec := by
  have trimmed := trimBlanks_eq_iff.mpr ⟨leaf.bare, padded⟩
  have parsed := (parseLeaf_eq_ok_iff leaf.bare).mpr leaf
  have plain := leaf.plain
  obtain ⟨c, rest, rfl⟩ := List.exists_cons_of_ne_nil leaf.ne_nil
  have other : c ≠ '(' := by
    rintro rfl
    exact plain _ List.mem_cons_self (by decide)
  rw [parseWithin_of_other trimmed other, parsed]

/-- The parser accepts a text of the grammar at all levels that suffice for its depth. -/
theorem parseWithin_of_describes (describes : Describes cs spec) (levels : Nat) :
    parseWithin levels cs = if spec.depth ≤ levels then .ok spec else .error .tooDeep := by
  induction describes generalizing levels with
  | leaf padded leaf =>
    rw [parseWithin_of_leaf padded leaf, if_pos ((depth_of_leafText leaf) ▸ Nat.zero_le levels)]
  | @tuple body cs parts padded separated items ih =>
    have trimmed := trimBlanks_eq_iff.mpr ⟨bare_parentheses body, padded⟩
    rw [depth]
    cases levels with
    | zero => rw [parseWithin_zero_of_tuple trimmed, if_neg (Nat.not_succ_le_zero _)]
    | succ levels =>
      have split : splitItems? body = some (parts.map (·.1)) :=
        separated.splitItems?_eq
          (List.forall_mem_map.mpr fun part member => (items part member).enclosed)
          (List.forall_mem_map.mpr fun part member => (items part member).not_blank)
      rw [parseWithin_succ_of_tuple trimmed, beforeLast?_eq_some_iff.mpr rfl, Option.bind_some,
        split]
      dsimp only
      rw [mapM_within fun part member => ih part member levels]
      by_cases fits : depthAll (parts.map (·.2)) ≤ levels
      · rw [if_pos fits, if_pos (Nat.succ_le_succ fits)]
        rfl
      · rw [if_neg fits, if_neg fun fit => fits (Nat.le_of_succ_le_succ fit)]
        rfl

/-- What the parser accepts is an operand that is no tuple or starts with a parenthesis. -/
theorem leaf_or_tuple {levels : Nat} (parsed : parseWithin levels cs = .ok spec) :
    Describes cs spec ∨ ∃ rest, trimBlanks cs = '(' :: rest := by
  have padded := padded_trimBlanks cs
  have bare := bare_trimBlanks cs
  cases trimmed : trimBlanks cs with
  | nil =>
    unfold parseWithin at parsed
    rw [trimmed] at parsed
    cases parsed
  | cons c rest =>
    rw [trimmed] at padded bare
    by_cases parenthesis : c = '('
    · exact .inr ⟨rest, parenthesis ▸ rfl⟩
    · rw [parseWithin_of_other trimmed parenthesis] at parsed
      exact .inl (.leaf padded ((parseLeaf_eq_ok_iff bare).mp parsed))

theorem describes_of_items {rest : List Char} {items : List (List Char)} {levels : Nat}
    (trimmed : trimBlanks cs = '(' :: rest)
    (split : (beforeLast? ')' rest).bind splitItems? = some items)
    (parsed : (items.mapM (parseWithin levels)).map .tuple = .ok spec)
    (each : ∀ piece item, parseWithin levels piece = .ok item → Describes piece item) :
    Describes cs spec := by
  obtain ⟨body, last, found⟩ := Option.bind_eq_some_iff.mp split
  obtain rfl := beforeLast?_eq_some_iff.mp last
  cases run : items.mapM (parseWithin levels) with
  | error e =>
    rw [run] at parsed
    cases parsed
  | ok specs =>
    rw [run] at parsed
    cases parsed
    obtain ⟨parts, rfl, rfl, results⟩ := pairs_of_mapM run
    exact .tuple (trimmed ▸ padded_trimBlanks cs) (separated_of_splitItems? found)
      fun part member => each part.1 part.2 (results part member)

/-- The parser accepts only texts of the grammar. -/
theorem describes_of_parseWithin {levels : Nat} (parsed : parseWithin levels cs = .ok spec) :
    Describes cs spec := by
  induction levels generalizing cs spec with
  | zero =>
    rcases leaf_or_tuple parsed with describes | ⟨rest, trimmed⟩
    · exact describes
    · rw [parseWithin_zero_of_tuple trimmed] at parsed
      cases parsed
  | succ levels ih =>
    rcases leaf_or_tuple parsed with describes | ⟨rest, trimmed⟩
    · exact describes
    · rw [parseWithin_succ_of_tuple trimmed] at parsed
      split at parsed
      · cases parsed
      · rename_i items split
        exact describes_of_items trimmed split parsed fun piece item => ih

/-- A text describes at most one operand. -/
theorem Describes.unique {other : OperandSpec} (first : Describes cs spec)
    (second : Describes cs other) : other = spec := by
  have parsed := parseWithin_of_describes first (max spec.depth other.depth)
  have parsed' := parseWithin_of_describes second (max spec.depth other.depth)
  rw [if_pos (Nat.le_max_left ..)] at parsed
  rw [if_pos (Nat.le_max_right ..), parsed] at parsed'
  cases parsed'
  rfl

/-- The parser accepts exactly the texts of the grammar with at most 16 levels of tuples. Each
text describes at most one operand, and where that has more levels they are the reason for which
the text is refused. -/
theorem parse_eq_ok_iff_describes (text : String) (spec : OperandSpec) :
    (parse text = .ok spec ↔ Describes text.toList spec ∧ spec.depth ≤ 16) ∧
      (Describes text.toList spec → ∀ other, Describes text.toList other → other = spec) ∧
      (Describes text.toList spec → 16 < spec.depth → parse text = .error .tooDeep) := by
  have within (describes : Describes text.toList spec) :
      parse text = if spec.depth ≤ 16 then .ok spec else .error .tooDeep :=
    parseWithin_of_describes describes 16
  refine ⟨⟨fun parsed => ?_, fun ⟨describes, fits⟩ => ?_⟩, ?_, fun describes deep => ?_⟩
  · have describes := describes_of_parseWithin parsed
    refine ⟨describes, ?_⟩
    by_contra deep
    rw [within describes, if_neg deep] at parsed
    cases parsed
  · rw [within describes, if_pos fits]
  · exact fun describes other another => describes.unique another
  · rw [within describes, if_neg (Nat.not_le.mpr deep)]

example : parse " (1, (u8 = 300,) ) " =
    .ok (.tuple [.literal (.int 1), .tuple [.param (.int .unsigned .w8) (some (.int 300))]]) := rfl

example : parse "(((((((((((((((((1)))))))))))))))))" = .error .tooDeep := rfl

end OperandSpec

end ScalarLowering
