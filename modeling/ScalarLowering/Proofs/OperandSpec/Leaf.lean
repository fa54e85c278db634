import Mathlib.Data.List.Basic
import ScalarLowering.OperandSpec.Parsing
import ScalarLowering.Proofs.Binary.Nearest
import ScalarLowering.Proofs.Decimal.Reading
import ScalarLowering.Proofs.Outcome
import ScalarLowering.Proofs.Text.Word
import ScalarLowering.Proofs.Vocabulary.Spelling

set_option autoImplicit false

/- Operands that are no tuples, stated as a grammar of trimmed texts. The parser
of such operands accepts exactly the texts of the grammar, each with the one
operand that it describes. -/

namespace ScalarLowering

/-- An integer that fits 64 signed bits, or else the double nearest to a decimal number. -/
inductive LiteralText : List Char → Literal → Prop where
  | int {cs : List Char} {i : Int64} (integer : IntegerText cs i.toInt) : LiteralText cs (.int i)
  | float {cs : List Char} {negative : Bool} {d : Decimal} {x : Binary .double}
    (other : ∀ i : Int64, ¬ IntegerText cs i.toInt) (number : d.NumberText cs negative)
    (nearest : x.IsNearest negative d.value) : LiteralText cs (.float x)

/-- A length of 64 bits with an optional plus, or a question mark for an unknown one. -/
inductive LengthText : List Char → Option UInt64 → Prop where
  | unknown : LengthText ['?'] none
  | known {cs digits : List Char} {n : UInt64} (sign : Signed false digits cs)
    (run : Digits digits) (value : Nat.ofDigitChars 10 digits 0 = n.toNat) :
    LengthText cs (some n)

/-- What a parameter may be bound to: a literal, an infinity, no number, or for a `bool` parameter
a truth value. -/
inductive BindingText (t : NumType) : List Char → Literal → Prop where
  | literal {cs : List Char} {l : Literal} (text : LiteralText cs l) : BindingText t cs l
  | infinity : BindingText t "inf".toList (.float (.infinite false))
  | minusInfinity : BindingText t "-inf".toList (.float (.infinite true))
  | nan : BindingText t "nan".toList (.float (.nan false))
  | truth {word : String} (isBool : t.isBool = true) (member : word ∈ ["true", "True"]) :
    BindingText t word.toList (.int 1)
  | falsity {word : String} (isBool : t.isBool = true) (member : word ∈ ["false", "False"]) :
    BindingText t word.toList (.int 0)

/-- A literal, an array, or a parameter with or without a bound value. Blanks may stand around
the length of an array and around an equals sign. -/
inductive LeafText : List Char → OperandSpec → Prop where
  | literal {cs : List Char} {l : Literal} (number : LiteralText cs l) : LeafText cs (.literal l)
  | array {cs inner : List Char} {length : Option UInt64} (padded : Padded cs inner)
    (text : LengthText cs length) :
    LeafText ("array[".toList ++ inner ++ [']']) (.array length)
  | param {cs : List Char} {t : NumType} (name : t.Spelled cs) : LeafText cs (.param t none)
  | bound {cs equals value : List Char} {t : NumType} {l : Literal} (name : t.Spelled cs)
    (padded : Padded ['='] equals) (text : BindingText t value l) :
    LeafText (cs ++ equals ++ value) (.param t (some l))

variable {cs : List Char}

theorem Word.of_numeric (nonempty : cs ≠ []) (numeric : ∀ c ∈ cs, Numeric c) : Word cs := by
  refine ⟨nonempty, fun c member => ?_⟩
  rcases numeric c member with digit | listed
  · exact .inl (isAlphanum_iff.mpr (.inr (isDigit_iff.mp digit)))
  · have char : ∀ c ∈ ['.', 'e', 'E', '+', '-'], c.isAlphanum = true ∨ c ∈ ['.', '+', '-', '?'] :=
      forall_mem_of_all (by decide)
    exact char c listed

/-- A text that starts with some character other than a letter. -/
def StartsApart (cs : List Char) : Prop := ∃ c rest, cs = c :: rest ∧ c.isAlpha = false

theorem StartsApart.ne_nil (apart : StartsApart cs) : cs ≠ [] := by
  obtain ⟨c, rest, rfl, _⟩ := apart
  exact List.cons_ne_nil _ _

theorem Signed.startsApart {negative : Bool} {rest : List Char} (sign : Signed negative rest cs)
    (apart : StartsApart rest) : StartsApart cs := by
  cases sign with
  | none => exact apart
  | plus => exact ⟨_, _, rfl, rfl⟩
  | minus => exact ⟨_, _, rfl, rfl⟩

theorem Digits.startsApart (run : Digits cs) : StartsApart cs := by
  obtain ⟨c, rest, rfl⟩ := List.exists_cons_of_ne_nil run.nonempty
  exact ⟨c, rest, rfl, isAlpha_of_isDigit (run.digit c List.mem_cons_self)⟩

theorem IntegerText.startsApart {i : Int} (text : IntegerText cs i) : StartsApart cs := by
  cases text with
  | nonneg sign run => exact sign.startsApart run.startsApart
  | neg sign run => exact sign.startsApart run.startsApart

theorem Decimal.NumberText.startsApart {negative : Bool} {d : Decimal}
    (text : d.NumberText cs negative) : StartsApart cs := by
  obtain ⟨rest, sign, unsigned⟩ := text
  refine sign.startsApart ?_
  obtain ⟨c, tail, rfl, digit | rfl⟩ := unsigned.first
  · exact ⟨c, tail, rfl, isAlpha_of_isDigit digit⟩
  · exact ⟨'.', tail, rfl, rfl⟩

/-- A literal starts with a digit, a point or a sign. -/
theorem LiteralText.startsApart {l : Literal} (text : LiteralText cs l) : StartsApart cs := by
  cases text with
  | int integer => exact integer.startsApart
  | float _ number => exact number.startsApart

theorem LiteralText.numeric {l : Literal} (text : LiteralText cs l) : ∀ c ∈ cs, Numeric c := by
  cases text with
  | int integer => exact integer.numeric
  | float _ number => exact number.numeric

theorem LiteralText.word {l : Literal} (text : LiteralText cs l) : Word cs :=
  .of_numeric text.startsApart.ne_nil text.numeric

theorem LengthText.word {length : Option UInt64} (text : LengthText cs length) : Word cs := by
  cases text with
  | unknown => decide
  | known sign run =>
    exact .of_numeric (sign.startsApart run.startsApart).ne_nil (sign.numeric run.numeric)

theorem BindingText.word {t : NumType} {l : Literal} (text : BindingText t cs l) : Word cs := by
  cases text with
  | literal text => exact text.word
  | infinity => decide
  | minusInfinity => decide
  | nan => decide
  | truth _ member =>
    rcases List.mem_pair.mp member with rfl | rfl <;> decide
  | falsity _ member =>
    rcases List.mem_pair.mp member with rfl | rfl <;> decide

theorem readInt64?_eq_some_iff {i : Int64} :
    readInt64? cs = some i ↔ IntegerText cs i.toInt := by
  rw [← readInt?_eq_some_iff, readInt64?, Option.bind_eq_bind, Option.bind_eq_some_iff]
  constructor
  · rintro ⟨n, read, fits⟩
    obtain ⟨⟨low, high⟩, ⟨⟩⟩ := Option.ite_none_right_eq_some.mp fits
    have same : (Int64.ofInt n).toInt = n :=
      Int64.toInt_ofInt_of_le low (Int.lt_add_one_of_le high)
    rw [read, same]
  · intro read
    refine ⟨i.toInt, read, ?_⟩
    rw [if_pos ⟨i.minValue_le_toInt, i.toInt_le⟩, Int64.ofInt_toInt]

/-- The reader of literals reads exactly their texts. -/
theorem Literal.read?_eq_some_iff {l : Literal} : Literal.read? cs = some l ↔ LiteralText cs l := by
  rw [Literal.read?]
  cases integer : readInt64? cs with
  | some i =>
    have text := readInt64?_eq_some_iff.mp integer
    constructor
    · rintro ⟨⟩
      exact .int text
    · intro literal
      cases literal with
      | int other =>
        rw [readInt64?_eq_some_iff.mpr other] at integer
        cases integer
        rfl
      | float other => exact absurd text (other i)
  | none =>
    have other (i : Int64) : ¬ IntegerText cs i.toInt := by
      intro text
      rw [readInt64?_eq_some_iff.mpr text] at integer
      cases integer
    constructor
    · intro read
      obtain ⟨⟨negative, d⟩, number, rfl⟩ := Option.map_eq_some_iff.mp read
      exact .float other (Decimal.read?_eq_some_iff.mp number)
        (Binary.ofDecimal_isNearest .double negative d)
    · intro literal
      cases literal with
      | int text => exact absurd text (other _)
      | @float negative d x _ number nearest =>
        have rounded := Binary.ofDecimal_isNearest .double negative d
        dsimp only
        rw [Decimal.read?_eq_some_iff.mpr number, nearest.unique rounded]
        rfl

theorem readUInt64?_eq_some_iff {n : UInt64} : readUInt64? cs = some n ↔
    ∃ digits, Signed false digits cs ∧ Digits digits ∧ Nat.ofDigitChars 10 digits 0 = n.toNat := by
  unfold readUInt64?
  rw [Option.bind_eq_bind, Option.bind_eq_some_iff]
  constructor
  · rintro ⟨value, read, fits⟩
    obtain ⟨bound, ⟨⟩⟩ := Option.ite_none_right_eq_some.mp fits
    obtain ⟨run, rfl⟩ := readNat?_eq_some_iff.mp read
    refine ⟨_, ?_, run, (UInt64.toNat_ofNat_of_lt' bound).symm⟩
    split
    · exact .plus
    · exact .none
  · rintro ⟨digits, sign, run, value⟩
    refine ⟨n.toNat, readNat?_eq_some_iff.mpr ?_, ?_⟩
    · cases sign with
      | plus => exact ⟨run, value⟩
      | none =>
        split
        · exact absurd rfl (run.first '+' rfl).2
        · exact ⟨run, value⟩
    · rw [if_pos n.toNat_lt_size, UInt64.ofNat_toNat]

/-- The reader of lengths reads exactly their texts. -/
theorem OperandSpec.parseLength_eq_ok_iff {inner : List Char} {length : Option UInt64} :
    parseLength inner = .ok length ↔ LengthText (trimBlanks inner) length := by
  unfold parseLength
  generalize trimBlanks inner = text
  by_cases unknown : text = ['?']
  · subst unknown
    have not_digits (digits : List Char) (sign : Signed false digits ['?']) : ¬ Digits digits := by
      cases sign
      intro run
      cases run.digit '?' List.mem_cons_self
    constructor
    · rintro ⟨⟩
      exact .unknown
    · intro text
      cases text with
      | unknown => rfl
      | known sign run => exact absurd run (not_digits _ sign)
  · simp only [if_neg unknown]
    constructor
    · intro parsed
      cases number : readUInt64? text with
      | none =>
        rw [number] at parsed
        cases parsed
      | some n =>
        rw [number] at parsed
        cases parsed
        obtain ⟨digits, sign, run, value⟩ := readUInt64?_eq_some_iff.mp number
        exact .known sign run value
    · intro length
      cases length with
      | unknown => exact absurd rfl unknown
      | known sign run value => rw [readUInt64?_eq_some_iff.mpr ⟨_, sign, run, value⟩]

theorem NumType.Spelled.not_startsApart {t : NumType} (spelled : t.Spelled cs) :
    ¬ StartsApart cs := by
  rintro ⟨c, rest, rfl, apart⟩
  have first : c.isAlpha = true := spelled.letters.1
  rw [apart] at first
  cases first

/-- The bindings that are no literals are not read as numbers. -/
theorem LiteralText.not_special {l : Literal} (text : LiteralText cs l) :
    ∀ special ∈ ["true", "True", "false", "False", "inf", "-inf", "nan"],
      String.ofList cs ≠ special := by
  intro special member same
  have letters : ∀ special ∈ ["true", "True", "false", "False", "inf", "-inf", "nan"],
    special.toList.all (fun c => decide (Numeric c)) = false := by decide
  refine Bool.eq_false_iff.mp (letters special member) (List.all_eq_true.mpr ?_)
  rw [← same, String.toList_ofList]
  exact fun c inside => decide_eq_true (text.numeric c inside)

/-- The reader of bindings reads exactly their texts. -/
theorem Literal.readBinding?_eq_some_iff {t : NumType} {l : Literal} :
    Literal.readBinding? t cs = some l ↔ BindingText t cs l := by
  constructor
  · intro read
    have exact (special : String) (same : (String.ofList cs == special) = true) :
        cs = special.toList := by
      rw [← beq_iff_eq.mp same, String.toList_ofList]
    unfold Literal.readBinding? at read
    dsimp only at read
    split_ifs at read with truth falsity infinity minusInfinity nan
    · obtain ⟨isBool, word⟩ := Bool.and_eq_true_iff.mp truth
      have text := BindingText.truth isBool
        (show String.ofList cs ∈ ["true", "True"] by simpa using word)
      cases read
      rwa [String.toList_ofList] at text
    · obtain ⟨isBool, word⟩ := Bool.and_eq_true_iff.mp falsity
      have text := BindingText.falsity isBool
        (show String.ofList cs ∈ ["false", "False"] by simpa using word)
      cases read
      rwa [String.toList_ofList] at text
    · cases read
      rw [exact _ infinity]
      exact .infinity
    · cases read
      rw [exact _ minusInfinity]
      exact .minusInfinity
    · cases read
      rw [exact _ nan]
      exact .nan
    · exact .literal (Literal.read?_eq_some_iff.mp read)
  · intro text
    cases text with
    | literal text =>
      have different := text.not_special
      simp only [List.forall_mem_cons] at different
      simp [Literal.readBinding?, different, Literal.read?_eq_some_iff.mpr text]
    | infinity => simp [Literal.readBinding?]
    | minusInfinity => simp [Literal.readBinding?]
    | nan => simp [Literal.readBinding?]
    | truth isBool member =>
      rcases List.mem_pair.mp member with rfl | rfl <;> simp [Literal.readBinding?, isBool]
    | falsity isBool member =>
      rcases List.mem_pair.mp member with rfl | rfl <;> simp [Literal.readBinding?, isBool]

namespace OperandSpec

theorem beforeLast?_eq_some_iff {c : Char} {inner : List Char} :
    beforeLast? c cs = some inner ↔ cs = inner ++ [c] := by
  rw [beforeLast?, Option.ite_none_right_eq_some, Option.some_inj]
  constructor
  · rintro ⟨last, rfl⟩
    exact (List.dropLast_append_getLast? c last).symm
  · rintro rfl
    rw [List.getLast?_concat, List.dropLast_concat]
    exact ⟨rfl, rfl⟩

theorem arrayBody_eq_some_iff {inner : List Char} :
    ("array[".toList.isPrefixOf? cs).bind (beforeLast? ']') = some inner ↔
      cs = "array[".toList ++ inner ++ [']'] := by
  rw [Option.bind_eq_some_iff]
  constructor
  · rintro ⟨rest, lead, last⟩
    rw [← List.isPrefixOf?_eq_some_iff_append_eq.mp lead, beforeLast?_eq_some_iff.mp last,
      List.append_assoc]
  · rintro rfl
    refine ⟨inner ++ [']'], ?_, beforeLast?_eq_some_iff.mpr rfl⟩
    rw [List.isPrefixOf?_eq_some_iff_append_eq, List.append_assoc]

/-- Only an array has an opening bracket. -/
theorem arrayBody_eq_none (missing : '[' ∉ cs) :
    ("array[".toList.isPrefixOf? cs).bind (beforeLast? ']') = none := by
  cases body : ("array[".toList.isPrefixOf? cs).bind (beforeLast? ']') with
  | none => rfl
  | some inner =>
    rw [arrayBody_eq_some_iff.mp body] at missing
    exact absurd (by simp) missing

theorem ne_equals {left : List Char} (missing : '=' ∉ left) :
    ∀ c ∈ left, decide (c ≠ '=') = true := by
  intro c member
  refine decide_eq_true ?_
  rintro rfl
  exact missing member

theorem parseParam_of_spelled {t : NumType} (name : t.Spelled cs) :
    parseParam cs = .ok (.param t none) := by
  have other := ne_equals (name.word.not_mem (by decide))
  rw [parseParam, List.takeWhile_eq_self_iff.mpr other, List.dropWhile_eq_nil_iff.mpr other,
    name.word.bare.trimBlanks_eq, NumType.ofName?_eq_some_iff.mpr name]

/-- The first equals sign is the one behind the name. -/
theorem parseParam_of_equals {left : List Char} (missing : '=' ∉ left) (right : List Char)
    {t : NumType} {l : Literal} (name : t.Spelled (trimBlanks left))
    (text : BindingText t (trimBlanks right) l) :
    parseParam (left ++ '=' :: right) = .ok (.param t (some l)) := by
  have other := ne_equals missing
  rw [parseParam, List.takeWhile_append_of_pos other, List.dropWhile_append_of_pos other,
    List.takeWhile_cons_of_neg (by decide), List.dropWhile_cons_of_neg (by decide),
    List.append_nil, NumType.ofName?_eq_some_iff.mpr name]
  dsimp only
  rw [Literal.readBinding?_eq_some_iff.mpr text]

theorem parseParam_of_bound {t : NumType} {l : Literal} {equals value : List Char}
    (name : t.Spelled cs) (padded : Padded ['='] equals) (text : BindingText t value l) :
    parseParam (cs ++ equals ++ value) = .ok (.param t (some l)) := by
  obtain ⟨before, after, rfl, blankBefore, blankAfter⟩ := padded
  have missing : '=' ∉ cs ++ before := by
    rw [List.mem_append, not_or]
    exact ⟨name.word.not_mem (by decide), fun member => nomatch blankBefore _ member⟩
  have trimmedName : trimBlanks (cs ++ before) = cs :=
    trimBlanks_eq_iff.mpr ⟨name.word.bare, [], before, rfl, .nil, blankBefore⟩
  have trimmedValue : trimBlanks (after ++ value) = value :=
    trimBlanks_eq_iff.mpr ⟨text.word.bare, after, [], (List.append_nil _).symm, blankAfter, .nil⟩
  have whole : cs ++ (before ++ ['='] ++ after) ++ value =
      cs ++ before ++ '=' :: (after ++ value) := by simp
  rw [whole, parseParam_of_equals missing _ (trimmedName.symm ▸ name) (trimmedValue.symm ▸ text)]

/-- A text that starts with a name and has no bracket is read as a parameter. -/
theorem parseLeaf_eq_parseParam {t : NumType} (name : t.Spelled cs) {rest : List Char}
    (missing : '[' ∉ cs ++ rest) : parseLeaf (cs ++ rest) = parseParam (cs ++ rest) := by
  rw [parseLeaf, arrayBody_eq_none missing]
  cases read : Literal.read? (cs ++ rest) with
  | none => rfl
  | some l =>
    obtain ⟨c, tail, start, apart⟩ := (Literal.read?_eq_some_iff.mp read).startsApart
    obtain ⟨d, others, rfl⟩ := List.exists_cons_of_ne_nil name.word.nonempty
    obtain ⟨rfl, _⟩ := List.cons.inj start
    exact absurd ⟨d, others, rfl, apart⟩ name.not_startsApart

/-- The parser accepts every text of the grammar. -/
theorem parseLeaf_of_leafText {spec : OperandSpec} (text : LeafText cs spec) :
    parseLeaf cs = .ok spec := by
  cases text with
  | literal number =>
    have missing : '[' ∉ cs := number.word.not_mem (by decide)
    rw [parseLeaf, arrayBody_eq_none missing, Literal.read?_eq_some_iff.mpr number]
  | array padded text =>
    have trimmed := trimBlanks_eq_iff.mpr ⟨text.word.bare, padded⟩
    rw [parseLeaf, arrayBody_eq_some_iff.mpr rfl]
    dsimp only
    rw [parseLength_eq_ok_iff.mpr (trimmed.symm ▸ text)]
    rfl
  | param name =>
    have missing : '[' ∉ cs ++ [] := by
      rw [List.append_nil]
      exact name.word.not_mem (by decide)
    have same := parseLeaf_eq_parseParam name missing
    rw [List.append_nil] at same
    rw [same, parseParam_of_spelled name]
  | @bound cs equals value _ _ name padded text =>
    have missing : '[' ∉ cs ++ (equals ++ value) := by
      rw [List.mem_append, List.mem_append, not_or, not_or]
      refine ⟨name.word.not_mem (by decide), fun member => ?_, text.word.not_mem (by decide)⟩
      cases List.mem_singleton.mp (padded.mem_core rfl member)
    rw [List.append_assoc, parseLeaf_eq_parseParam name missing, ← List.append_assoc,
      parseParam_of_bound name padded text]

/-- In a trimmed text blanks are left only around the equals sign. -/
theorem leafText_of_equals {left right : List Char} {t : NumType} {l : Literal}
    (bare : Bare (left ++ '=' :: right)) (name : t.Spelled (trimBlanks left))
    (text : BindingText t (trimBlanks right) l) :
    LeafText (left ++ '=' :: right) (.param t (some l)) := by
  obtain ⟨front, gap, leftParts, blankFront, blankGap⟩ := padded_trimBlanks left
  obtain ⟨gap', back, rightParts, blankGap', blankBack⟩ := padded_trimBlanks right
  generalize trimBlanks left = core at name leftParts
  generalize trimBlanks right = value at text rightParts
  subst leftParts rightParts
  have fromFront : Bare (front ++ (core ++ gap ++ '=' :: (gap' ++ value ++ back))) := by
    simpa using bare
  obtain rfl := fromFront.before_eq_nil blankFront
  have toBack : Bare ((core ++ gap ++ '=' :: (gap' ++ value)) ++ back) := by
    simpa using bare
  obtain rfl := toBack.after_eq_nil blankBack
  have bound := LeafText.bound name ⟨gap, gap', rfl, blankGap, blankGap'⟩ text
  simpa using bound

theorem leafText_of_parseParam {spec : OperandSpec} (bare : Bare cs)
    (parsed : parseParam cs = .ok spec) : LeafText cs spec := by
  have whole := List.takeWhile_append_dropWhile (p := fun c => decide (c ≠ '=')) (l := cs)
  unfold parseParam at parsed
  split at parsed
  · cases parsed
  · rename_i t found
    have name := NumType.ofName?_eq_some_iff.mp found
    split at parsed
    · rename_i empty
      cases parsed
      rw [empty, List.append_nil] at whole
      rw [whole, bare.trimBlanks_eq] at name
      exact .param name
    · rename_i c rest behind
      have first := List.head?_dropWhile_not (fun c => decide (c ≠ '=')) cs
      rw [behind] at first whole
      obtain rfl : c = '=' := by simpa using first
      dsimp only at parsed
      split at parsed
      · rename_i read
        cases parsed
        rw [← whole] at bare ⊢
        exact leafText_of_equals bare name (Literal.readBinding?_eq_some_iff.mp read)
      · cases parsed

/-- The parser accepts only texts of the grammar. -/
theorem leafText_of_parseLeaf {spec : OperandSpec} (bare : Bare cs)
    (parsed : parseLeaf cs = .ok spec) : LeafText cs spec := by
  unfold parseLeaf at parsed
  split at parsed
  · rename_i inner body
    rw [arrayBody_eq_some_iff.mp body]
    cases read : parseLength inner with
    | error =>
      rw [read] at parsed
      cases parsed
    | ok length =>
      rw [read] at parsed
      cases parsed
      exact .array (padded_trimBlanks inner) (parseLength_eq_ok_iff.mp read)
  · split at parsed
    · rename_i read
      cases parsed
      exact .literal (Literal.read?_eq_some_iff.mp read)
    · exact leafText_of_parseParam bare parsed

/-- On trimmed texts the parser accepts exactly the grammar. -/
theorem parseLeaf_eq_ok_iff {spec : OperandSpec} (bare : Bare cs) :
    parseLeaf cs = .ok spec ↔ LeafText cs spec :=
  ⟨leafText_of_parseLeaf bare, parseLeaf_of_leafText⟩

end OperandSpec

namespace LeafText

variable {spec : OperandSpec}

theorem ne_nil (text : LeafText cs spec) : cs ≠ [] := by
  cases text with
  | literal number => exact number.word.nonempty
  | array => exact List.append_ne_nil_of_right_ne_nil _ (List.cons_ne_nil _ _)
  | param name => exact name.word.nonempty
  | bound _ _ text => exact List.append_ne_nil_of_right_ne_nil _ text.word.nonempty

theorem bare (text : LeafText cs spec) : Bare cs := by
  cases text with
  | literal number => exact number.word.bare
  | array =>
    exact .around (.of_none (forall_mem_of_all (by decide)))
      (.of_none (forall_mem_of_all (by decide))) (by decide) (List.cons_ne_nil _ _) _
  | param name => exact name.word.bare
  | bound name _ text =>
    exact .around name.word.bare text.word.bare name.word.nonempty text.word.nonempty _

/-- Neither parentheses nor commas stand in an operand that is no tuple. -/
theorem plain (text : LeafText cs spec) : Plain cs := by
  cases text with
  | literal number => exact number.word.plain
  | param name => exact name.word.plain
  | array padded text =>
    have lead : Plain "array[".toList := forall_mem_of_all (by decide)
    have last : Plain [']'] := forall_mem_of_all (by decide)
    exact (lead.append (padded.plain text.word.plain)).append last
  | bound name padded text =>
    have equals : Plain ['='] := forall_mem_of_all (by decide)
    exact (name.word.plain.append (padded.plain equals)).append text.word.plain

end LeafText

end ScalarLowering
