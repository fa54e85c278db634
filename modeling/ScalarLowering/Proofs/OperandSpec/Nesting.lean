import ScalarLowering.Proofs.OperandSpec.Separation

set_option autoImplicit false

/- The splitter, told by counting parentheses. A comma separates items where as
many parentheses have been closed as opened before it, and a text is refused
where one closes that none has opened or where one stays open. -/

namespace ScalarLowering

/-- Read from a nesting depth on, no start of the text closes more parentheses than are open. -/
def StaysOpen (depth : Nat) (cs : List Char) : Prop :=
  ∀ lead, lead <+: cs → lead.count ')' ≤ depth + lead.count '('

/-- Read from a nesting depth on, each comma of the text stands inside parentheses. -/
def CommasInside (depth : Nat) (cs : List Char) : Prop :=
  ∀ lead, lead ++ [','] <+: cs → lead.count ')' < depth + lead.count '('

/-- Each parenthesis has its partner. -/
structure Balanced (cs : List Char) : Prop where
  staysOpen : StaysOpen 0 cs
  level : cs.count '(' = cs.count ')'

/-- The items of a text that is not blank. Joined by commas they are the text, or all of it before
a last comma with nothing but blanks behind. -/
structure ItemsOf (cs : List Char) (items : List (List Char)) : Prop where
  nonempty : items ≠ []
  balanced : ∀ item ∈ items, Balanced item
  inside : ∀ item ∈ items, CommasInside 0 item
  joined : cs = [','].intercalate items ∧ (∀ last ∈ items.getLast?, ¬ Blank last) ∨
    ∃ gap, Blank gap ∧ cs = [','].intercalate items ++ ',' :: gap

variable {cs : List Char} {items : List (List Char)} {c : Char} {d e : Nat}

/-- A step from one depth to another keeps the account of parentheses. -/
theorem depthBehind?_eq_some_iff :
    depthBehind? d c = some e ↔ d + [c].count '(' = e + [c].count ')' := by
  by_cases left : c = '('
  · subst left
    simp [depthBehind?]
  · by_cases right : c = ')'
    · subst right
      cases d with
      | zero => simp [depthBehind?]
      | succ d => simp [depthBehind?]
    · rw [depthBehind?_of_plain left right]
      simp [left, right]

theorem count_cons_eq (mark c : Char) (cs : List Char) :
    (c :: cs).count mark = [c].count mark + cs.count mark := by
  rw [← List.singleton_append, List.count_append]

theorem staysOpen_nil : StaysOpen d [] := by
  intro lead start
  rw [List.prefix_nil.mp start]
  exact Nat.zero_le _

theorem commasInside_nil : CommasInside d [] := by
  intro lead start
  simp at start

theorem staysOpen_cons (step : depthBehind? d c = some e) :
    StaysOpen d (c :: cs) ↔ StaysOpen e cs := by
  have account := depthBehind?_eq_some_iff.mp step
  constructor
  · intro whole lead start
    have bound := whole (c :: lead) ((List.prefix_cons_inj c).mpr start)
    have opened := count_cons_eq '(' c lead
    have closed := count_cons_eq ')' c lead
    omega
  · intro rest lead start
    cases lead with
    | nil => exact Nat.zero_le _
    | cons first lead =>
      obtain ⟨rfl, later⟩ := List.cons_prefix_cons.mp start
      have bound := rest lead later
      have opened := count_cons_eq '(' first lead
      have closed := count_cons_eq ')' first lead
      omega

/-- A character behind which there is no depth closes what is not open. -/
theorem not_staysOpen_cons (step : depthBehind? d c = none) : ¬ StaysOpen d (c :: cs) := by
  intro whole
  have bound := whole [c] ((List.prefix_cons_inj c).mpr List.nil_prefix)
  have account : depthBehind? d c = some (d + [c].count '(' - [c].count ')') := by
    apply depthBehind?_eq_some_iff.mpr
    omega
  rw [step] at account
  cases account

theorem commasInside_cons (step : depthBehind? d c = some e) :
    CommasInside d (c :: cs) ↔ (d = 0 → c ≠ ',') ∧ CommasInside e cs := by
  have account := depthBehind?_eq_some_iff.mp step
  constructor
  · intro whole
    constructor
    · rintro rfl rfl
      have bound := whole [] ((List.prefix_cons_inj ',').mpr List.nil_prefix)
      simp at bound
    · intro lead start
      have bound := whole (c :: lead) ((List.prefix_cons_inj c).mpr start)
      have opened := count_cons_eq '(' c lead
      have closed := count_cons_eq ')' c lead
      omega
  · rintro ⟨outside, rest⟩ lead start
    cases lead with
    | nil =>
      obtain ⟨rfl, _⟩ := List.cons_prefix_cons.mp start
      simp only [List.count_nil, Nat.add_zero]
      by_contra none
      exact outside (Nat.eq_zero_of_not_pos none) rfl
    | cons first lead =>
      obtain ⟨rfl, later⟩ := List.cons_prefix_cons.mp start
      have bound := rest lead later
      have opened := count_cons_eq '(' first lead
      have closed := count_cons_eq ')' first lead
      omega

/-- The balance that the splitter looks for is that of the counts. -/
theorem isBalancedFrom_iff :
    isBalancedFrom d cs = true ↔ StaysOpen d cs ∧ d + cs.count '(' = cs.count ')' := by
  induction cs generalizing d with
  | nil => simp [isBalancedFrom, staysOpen_nil]
  | cons c cs ih =>
    have opened := count_cons_eq '(' c cs
    have closed := count_cons_eq ')' c cs
    rw [isBalancedFrom]
    cases step : depthBehind? d c with
    | none => simp [not_staysOpen_cons step]
    | some e =>
      have account := depthBehind?_eq_some_iff.mp step
      simp only [ih, staysOpen_cons step]
      apply and_congr_right
      intro _
      omega

/-- Enclosed texts are those without a comma outside parentheses. -/
theorem enclosed_iff :
    Enclosed d cs e ↔
      StaysOpen d cs ∧ d + cs.count '(' = e + cs.count ')' ∧ CommasInside d cs := by
  constructor
  · intro enclosed
    induction enclosed with
    | nil => exact ⟨staysOpen_nil, rfl, commasInside_nil⟩
    | @cons _ _ _ c cs inside step _ ih =>
      obtain ⟨stays, level, commas⟩ := ih
      have account := depthBehind?_eq_some_iff.mp step
      have opened := count_cons_eq '(' c cs
      have closed := count_cons_eq ')' c cs
      refine ⟨(staysOpen_cons step).mpr stays, ?_, (commasInside_cons step).mpr ⟨inside, commas⟩⟩
      omega
  · rintro ⟨stays, level, commas⟩
    induction cs generalizing d with
    | nil =>
      obtain rfl : d = e := by simpa using level
      exact .nil
    | cons c cs ih =>
      cases step : depthBehind? d c with
      | none => exact absurd stays (not_staysOpen_cons step)
      | some next =>
        have account := depthBehind?_eq_some_iff.mp step
        obtain ⟨inside, commas⟩ := (commasInside_cons step).mp commas
        have opened := count_cons_eq '(' c cs
        have closed := count_cons_eq ')' c cs
        refine .cons inside step (ih ((staysOpen_cons step).mp stays) ?_ commas)
        omega

/-- Every piece of a balanced text is enclosed, the first one from the depth it starts at. -/
theorem enclosed_splitCommasFrom (balanced : isBalancedFrom d cs = true) :
    ∃ piece pieces, splitCommasFrom d cs = piece :: pieces ∧ Enclosed d piece 0 ∧
      ∀ piece ∈ pieces, Enclosed 0 piece 0 := by
  induction cs generalizing d with
  | nil =>
    obtain rfl : d = 0 := of_decide_eq_true balanced
    exact ⟨[], [], rfl, .nil, nofun⟩
  | cons c cs ih =>
    rw [isBalancedFrom] at balanced
    cases step : depthBehind? d c with
    | none =>
      rw [step] at balanced
      cases balanced
    | some e =>
      rw [step] at balanced
      obtain ⟨piece, pieces, split, first, others⟩ := ih balanced
      by_cases outside : d = 0 ∧ c = ','
      · obtain ⟨rfl, rfl⟩ := outside
        cases step
        refine ⟨[], piece :: pieces, ?_, .nil, List.forall_mem_cons.mpr ⟨first, others⟩⟩
        rw [splitCommasFrom, if_pos ⟨rfl, rfl⟩, split]
      · refine ⟨c :: piece, pieces, ?_, .cons ?_ step first, others⟩
        · rw [splitCommasFrom, if_neg outside, step, Option.getD_some, split]
        · intro zero comma
          exact outside ⟨zero, comma⟩

theorem enclosed_zero_iff : Enclosed 0 cs 0 ↔ Balanced cs ∧ CommasInside 0 cs := by
  rw [enclosed_iff, Nat.zero_add, Nat.zero_add]
  constructor
  · rintro ⟨stays, level, inside⟩
    exact ⟨⟨stays, level⟩, inside⟩
  · rintro ⟨⟨stays, level⟩, inside⟩
    exact ⟨stays, level, inside⟩

theorem isBalancedFrom_zero_iff : isBalancedFrom 0 cs = true ↔ Balanced cs := by
  rw [isBalancedFrom_iff, Nat.zero_add]
  constructor
  · rintro ⟨stays, level⟩
    exact ⟨stays, level⟩
  · rintro ⟨stays, level⟩
    exact ⟨stays, level⟩

theorem not_balanced_iff :
    ¬ Balanced cs ↔ (∃ lead, lead <+: cs ∧ lead.count '(' < lead.count ')') ∨
      cs.count '(' ≠ cs.count ')' := by
  constructor
  · intro other
    by_contra neither
    push Not at neither
    obtain ⟨stays, level⟩ := neither
    refine other ⟨fun lead start => ?_, level⟩
    rw [Nat.zero_add]
    exact stays lead start
  · rintro (⟨lead, start, more⟩ | apart) balanced
    · have bound := balanced.staysOpen lead start
      omega
    · exact apart balanced.level

theorem splitItems?_eq_none_iff (visible : ¬ Blank cs) :
    splitItems? cs = none ↔ ¬ Balanced cs := by
  rw [← isBalancedFrom_zero_iff, splitItems?, if_neg (all_isBlank_iff.not.mpr visible)]
  dsimp only
  split_ifs <;> simp [*]

/-- What is returned for a text that is not blank are its items. -/
theorem itemsOf_of_splitItems? (visible : ¬ Blank cs) (split : splitItems? cs = some items) :
    ItemsOf cs items := by
  obtain ⟨balanced, nonempty, ends⟩ := splitItems?_cases visible split
  have whole := intercalate_splitCommasFrom 0 cs
  have enclosed : ∀ piece ∈ splitCommasFrom 0 cs, Enclosed 0 piece 0 := by
    obtain ⟨piece, pieces, parts, first, others⟩ := enclosed_splitCommasFrom balanced
    rw [parts]
    exact List.forall_mem_cons.mpr ⟨first, others⟩
  have listed : ∀ item ∈ items, item ∈ splitCommasFrom 0 cs := by
    intro item member
    rcases ends with ⟨parts, _⟩ | ⟨gap, _, parts⟩
    · exact parts ▸ member
    · rw [parts]
      exact List.mem_append_left [gap] member
  have kept := fun item member => enclosed_zero_iff.mp (enclosed item (listed item member))
  refine ⟨nonempty, fun item member => (kept item member).1,
    fun item member => (kept item member).2, ?_⟩
  rcases ends with ⟨parts, last⟩ | ⟨gap, blank, parts⟩
  · exact .inl ⟨by rw [← parts, whole], last⟩
  · refine .inr ⟨gap, blank, ?_⟩
    rw [← intercalate_append_singleton nonempty, ← parts, whole]

/-- There is only one way to separate a text into items, and the splitter finds it. -/
theorem ItemsOf.splitItems?_eq (of : ItemsOf cs items) : splitItems? cs = some items := by
  have enclosed : ∀ item ∈ items, Enclosed 0 item 0 := fun item member =>
    enclosed_zero_iff.mpr ⟨of.balanced item member, of.inside item member⟩
  rcases of.joined with ⟨rfl, ends⟩ | ⟨gap, blank, rfl⟩
  · rcases List.eq_nil_or_concat items with empty | ⟨init, last, parts⟩
    · exact absurd empty of.nonempty
    · rw [List.concat_eq_append] at parts
      subst parts
      have seen : ¬ Blank last := ends last List.getLast?_concat
      rw [splitItems?_concat enclosed (not_blank_concat seen init),
        if_neg (all_isBlank_iff.not.mpr seen)]
  · exact splitItems?_trailing of.nonempty enclosed blank

/-- A blank text has no items. Any other text is refused exactly if some start of it closes more
parentheses than it opens or not all are closed in the end, and otherwise its items are returned. -/
theorem splitItems?_at_outer_commas (cs : List Char) :
    (Blank cs → splitItems? cs = some []) ∧
    (¬ Blank cs →
      (splitItems? cs = none ↔ (∃ lead, lead <+: cs ∧ lead.count '(' < lead.count ')') ∨
        cs.count '(' ≠ cs.count ')') ∧
      ∀ items, splitItems? cs = some items ↔ ItemsOf cs items) := by
  constructor
  · intro blank
    rw [splitItems?, if_pos (all_isBlank_iff.mpr blank)]
  · intro visible
    constructor
    · rw [splitItems?_eq_none_iff visible, not_balanced_iff]
    · intro items
      exact ⟨itemsOf_of_splitItems? visible, ItemsOf.splitItems?_eq⟩

example : splitItems? "(1, 2) ,3, ".toList = some ["(1, 2) ".toList, "3".toList] := rfl

end ScalarLowering
