import ScalarLowering.Proofs.Kernel.Text
import ScalarLowering.Proofs.Value.Text
import ScalarLowering.Proofs.Vocabulary.Keys

set_option autoImplicit false

/- The words of the lines of a kernel. A keyword tells the operation, and all that
a well-typed instruction holds follows in an order of its own. Only the template
of a call is not shown, and only the NaNs are not told apart. -/

namespace ScalarLowering

@[simp] theorem toDigits_inj {m n : Nat} : Nat.toDigits 10 m = Nat.toDigits 10 n ↔ m = n := by
  refine ⟨fun same => ?_, congrArg (Nat.toDigits 10)⟩
  rw [← Nat.ofDigitChars_ten_toDigits (n := m), same, Nat.ofDigitChars_ten_toDigits]

theorem wordsOf_toString (n : Nat) : wordsOf (toString n).toList = [Nat.toDigits 10 n] := by
  rw [Nat.toString_eq_repr, Nat.toList_repr, (word_toDigits n).wordsOf_eq]

namespace ValueId

def word (id : ValueId) : List Char := Nat.toDigits 10 id.index

theorem wordsOf_text (id : ValueId) : wordsOf id.text.toList = [id.word] := by
  rw [text, String.toList_append, wordsOf_lead (by decide), wordsOf_toString]
  rfl

theorem word_injective : Function.Injective word := by
  intro ⟨m⟩ ⟨n⟩ same
  exact congrArg mk (toDigits_inj.mp same)

@[simp] theorem word_inj {a b : ValueId} : a.word = b.word ↔ a = b := word_injective.eq_iff

end ValueId

namespace NumType

theorem wordsOf_name (t : NumType) : wordsOf t.name.toList = [t.name.toList] := by
  have spelled : t.Spelled t.name.toList := ⟨t.entry.canonical, List.mem_cons_self, rfl⟩
  exact spelled.word.wordsOf_eq

@[simp] theorem name_inj {t u : NumType} : t.name.toList = u.name.toList ↔ t = u := by
  rw [String.toList_inj]
  exact ⟨name_distinct t (mem_all t) u (mem_all u), congrArg name⟩

end NumType

namespace Predicate

theorem wordsOf_name (p : Predicate) : wordsOf p.name.toList = [p.name.toList] := by
  cases p <;> decide

@[simp] theorem name_inj {p q : Predicate} : p.name.toList = q.name.toList ↔ p = q := by
  cases p <;> cases q <;> decide

end Predicate

/-- The length of an array in its type. -/
def lengthWord : Option UInt64 → List Char
  | none => ['?']
  | some n => Nat.toDigits 10 n.toNat

@[simp] theorem lengthWord_inj {m n : Option UInt64} : lengthWord m = lengthWord n ↔ m = n := by
  refine ⟨fun same => ?_, congrArg lengthWord⟩
  have known (n : UInt64) : Nat.toDigits 10 n.toNat ≠ ['?'] := by
    intro same
    have digit := (digits_toDigits n.toNat).digit '?' (by simp [same])
    cases digit
  cases m with
  | none =>
    cases n with
    | none => rfl
    | some n => exact absurd same.symm (known n)
  | some m =>
    cases n with
    | none => exact absurd same (known m)
    | some n => rw [UInt64.toNat_inj.mp (toDigits_inj.mp same)]

namespace ValueType

def words : ValueType → List (List Char)
  | .scalar t => [t.name.toList]
  | .array elem length => ["array".toList, elem.name.toList, "x".toList, lengthWord length]

theorem wordsOf_text (type : ValueType) : wordsOf type.text.toList = type.words := by
  cases type with
  | scalar t => exact t.wordsOf_name
  | array elem length =>
    have last :
        wordsOf ((length.map (toString ·.toNat)).getD "?").toList = [lengthWord length] := by
      cases length with
      | none => decide
      | some n => exact wordsOf_toString n.toNat
    have middle : " x ".toList = ' ' :: "x ".toList := by decide
    simp only [text, String.toList_append]
    rw [wordsOf_before _ (by decide), wordsOf_lead (.append (by decide) _), middle,
      wordsOf_append_cons _ _ (by decide), wordsOf_lead (by decide), elem.wordsOf_name, last]
    rfl

@[simp] theorem words_inj {type type' : ValueType} : type.words = type'.words ↔ type = type' := by
  cases type <;> cases type' <;> simp [words]

/-- The name of a scalar type is the last word. -/
@[simp] theorem append_words_inj {before before' : List (List Char)} {t u : NumType} :
    before ++ (scalar t).words = before' ++ (scalar u).words ↔ before = before' ∧ t = u := by
  constructor
  · intro same
    obtain ⟨first, last⟩ := List.append_inj' same rfl
    exact ⟨first, scalar.inj (words_inj.mp last)⟩
  · rintro ⟨rfl, rfl⟩
    rfl

end ValueType

namespace Operation

def words : Operation → List (List Char)
  | .param index => ["param".toList, Nat.toDigits 10 index]
  | .const value => "const".toList :: value.words
  | .cast source => ["cast".toList, source.word]
  | .compare predicate lhs rhs => ["cmp".toList, predicate.name.toList, lhs.word, rhs.word]
  | .select condition onTrue onFalse =>
    ["select".toList, condition.word, onTrue.word, onFalse.word]
  | .neg operand => ["neg".toList, operand.word]
  | .call symbol args _ decorated =>
    "call".toList :: (if decorated then ["decorated".toList] else []) ++
      symbol.toList :: args.map (·.word)

theorem wordsOf_args (args : List ValueId) :
    wordsOf (String.intercalate ", " (args.map (·.text))).toList = args.map (·.word) := by
  rw [String.toList_intercalate, wordsOf_intercalate (by decide), List.map_map, List.flatMap_map]
  simp only [Function.comp_apply, ValueId.wordsOf_text, List.map_eq_flatMap]

theorem wordsOf_text {o : Operation} (symbols : ∀ symbol ∈ o.symbol?, Word symbol.toList) :
    wordsOf o.text.toList = o.words := by
  cases o with
  | param index =>
    rw [text, String.toList_append, wordsOf_lead (by decide), wordsOf_toString]
    rfl
  | const value =>
    rw [text, String.toList_append, wordsOf_lead (by decide), value.wordsOf_text]
    rfl
  | cast source =>
    rw [text, String.toList_append, wordsOf_lead (by decide), source.wordsOf_text]
    rfl
  | compare predicate lhs rhs =>
    simp only [text, String.toList_append]
    rw [wordsOf_between _ _ (by decide), wordsOf_between _ _ (by decide), wordsOf_lead (by decide),
      predicate.wordsOf_name, lhs.wordsOf_text, rhs.wordsOf_text]
    rfl
  | select condition onTrue onFalse =>
    simp only [text, String.toList_append]
    rw [wordsOf_between _ _ (by decide), wordsOf_between _ _ (by decide), wordsOf_lead (by decide),
      condition.wordsOf_text, onTrue.wordsOf_text, onFalse.wordsOf_text]
    rfl
  | neg operand =>
    rw [text, String.toList_append, wordsOf_lead (by decide), operand.wordsOf_text]
    rfl
  | call symbol args template decorated =>
    have name := (symbols symbol rfl).wordsOf_eq
    have mark : wordsOf (if decorated then "decorated " else "").toList =
        if decorated then ["decorated".toList] else [] := by
      cases decorated <;> decide
    simp only [text, String.toList_append]
    rw [wordsOf_before _ (by decide), wordsOf_between _ _ (by decide),
      wordsOf_between _ _ (by decide), wordsOf_lead (by decide), wordsOf_args, name, mark,
      List.append_assoc]
    rfl

/-- The template of a call. -/
def template? : Operation → Option ValueId
  | .call _ _ template _ => some template
  | _ => none

/-- The operation, with one NaN for all NaNs. -/
def oneNaN : Operation → Operation
  | .const value => .const value.oneNaN
  | o => o

theorem text_oneNaN (o : Operation) : o.oneNaN.text = o.text := by
  cases o with
  | const value => rw [oneNaN, text, text, value.text_oneNaN]
  | _ => rfl

end Operation

namespace Instruction

/-- The instruction, with one NaN for all NaNs. -/
def oneNaN (i : Instruction) : Instruction := { i with operation := i.operation.oneNaN }

theorem line_oneNaN (id : ValueId) (i : Instruction) : i.oneNaN.line id = i.line id := by
  rw [line, line, oneNaN, i.operation.text_oneNaN]

def words (i : Instruction) : List (List Char) := i.operation.words ++ i.type.words

/-- A call has the value right before it for its template. -/
def TemplateBefore (position : Nat) (i : Instruction) : Prop :=
  ∀ template ∈ i.operation.template?, template.index + 1 = position

namespace WellTyped

variable {k k' : Kernel} {position : Nat} {i i' : Instruction}

theorem wordsOf_line (typed : i.WellTyped k position) (id : ValueId) :
    wordsOf (i.line id).toList = id.word :: i.words := by
  simp only [line, String.toList_append]
  rw [wordsOf_between _ _ (by decide), wordsOf_between _ _ (by decide), id.wordsOf_text,
    Operation.wordsOf_text fun _ called => typed.word_symbol called, i.type.wordsOf_text]
  rfl

/-- At its position, a well-typed instruction is told by its words. -/
theorem oneNaN_of_words (typed : i.WellTyped k position) (typed' : i'.WellTyped k' position)
    (template : i.TemplateBefore position) (template' : i'.TemplateBefore position)
    (same : i.words = i'.words) : i.oneNaN = i'.oneNaN := by
  -- The keyword leaves one case for the second instruction, and the others contradict it.
  cases typed with
  | param type index =>
    cases typed' with
    | param type' index' =>
      obtain ⟨rfl, rfl⟩ : index = index' ∧ type = type' := by
        simpa [words, Operation.words] using same
      rfl
    | _ => simp [words, Operation.words] at same
  | const v =>
    cases typed' with
    | const v' =>
      obtain ⟨written, type⟩ : v.words = v'.words ∧ v.type = v'.type := by
        simpa [words, Operation.words] using same
      simp only [oneNaN, Operation.oneNaN, type, Value.oneNaN_of_words type written]
    | _ => simp [words, Operation.words] at same
  | @cast _ t source =>
    cases typed' with
    | @cast _ t' source' =>
      obtain ⟨rfl, rfl⟩ : source = source' ∧ t = t' := by
        simpa [words, Operation.words] using same
      rfl
    | _ => simp [words, Operation.words] at same
  | @compare _ predicate lhs rhs =>
    cases typed' with
    | @compare _ predicate' lhs' rhs' =>
      obtain ⟨rfl, rfl, rfl⟩ : predicate = predicate' ∧ lhs = lhs' ∧ rhs = rhs' := by
        simpa [words, Operation.words] using same
      rfl
    | _ => simp [words, Operation.words] at same
  | @select t condition onTrue onFalse =>
    cases typed' with
    | @select t' condition' onTrue' onFalse' =>
      obtain ⟨rfl, rfl, rfl, rfl⟩ :
          condition = condition' ∧ onTrue = onTrue' ∧ onFalse = onFalse' ∧ t = t' := by
        simpa [words, Operation.words] using same
      rfl
    | _ => simp [words, Operation.words] at same
  | @neg t operand =>
    cases typed' with
    | @neg t' operand' =>
      obtain ⟨rfl, rfl⟩ : operand = operand' ∧ t = t' := by
        simpa [words, Operation.words] using same
      rfl
    | _ => simp [words, Operation.words] at same
  | @call r t symbol args before =>
    cases typed' with
    | @call r' t' symbol' args' before' =>
      obtain ⟨rfl, arguments, type⟩ : symbol = symbol' ∧
          args.map (·.word) = args'.map (·.word) ∧ r.result t = r'.result t' := by
        simpa [words, Operation.words, String.toList_inj] using same
      obtain rfl := List.map_injective_iff.mpr ValueId.word_injective arguments
      have index : before.index = before'.index := by
        have first := template before rfl
        have second := template' before' rfl
        omega
      obtain rfl : before = before' := congrArg ValueId.mk index
      rw [type]
    | _ => simp [words, Operation.words] at same

theorem oneNaN_of_line {id : ValueId} (typed : i.WellTyped k id.index)
    (typed' : i'.WellTyped k' id.index) (template : i.TemplateBefore id.index)
    (template' : i'.TemplateBefore id.index) (same : i.line id = i'.line id) :
    i.oneNaN = i'.oneNaN := by
  have words := typed.wordsOf_line id
  rw [same, typed'.wordsOf_line] at words
  exact oneNaN_of_words typed typed' template template' (List.cons.inj words).2.symm

end WellTyped

end Instruction

end ScalarLowering
