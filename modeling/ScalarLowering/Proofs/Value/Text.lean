import ScalarLowering.Proofs.Binary.Shortest
import ScalarLowering.Proofs.OperandSpec.Leaf
import ScalarLowering.Proofs.Text.Words
import ScalarLowering.Proofs.Value.Integer

set_option autoImplicit false

/- The texts of values. The type of a value and the words of its text tell which
value it is, except for which NaN. -/

namespace ScalarLowering

theorem word_toDigits (n : Nat) : Word (Nat.toDigits 10 n) :=
  .of_numeric (digits_toDigits n).nonempty (digits_toDigits n).numeric

theorem word_intChars (i : Int) : Word (intChars i) :=
  .of_numeric (integerText_intChars i).startsApart.ne_nil (integerText_intChars i).numeric

theorem intChars_inj {i j : Int} : intChars i = intChars j ↔ i = j := by
  refine ⟨fun same => ?_, congrArg intChars⟩
  have text := integerText_intChars i
  rw [same] at text
  exact text.unique (integerText_intChars j)

theorem Binary.word_chars {p : Precision} (x : Binary p) : Word x.chars := by
  cases number : x.isNaN with
  | true =>
    rw [chars, if_pos number]
    decide
  | false =>
    rcases isFinite_or_isInfinite number with finite | infinite
    · obtain ⟨⟨d, text, _⟩, _⟩ := exists_numberText_chars (of_decide_eq_true finite)
      exact .of_numeric text.startsApart.ne_nil text.numeric
    · rw [eq_infinite infinite]
      cases p <;> cases x.negative <;> decide

theorem Binary.wordsOf_text {p : Precision} (x : Binary p) : wordsOf x.text.toList = [x.chars] := by
  rw [text, String.toList_ofList, x.word_chars.wordsOf_eq]

namespace Value

/-- The value, with one NaN for all NaNs. -/
def oneNaN : Value → Value
  | .float p x => .float p x.oneNaN
  | .complex p re im => .complex p re.oneNaN im.oneNaN
  | v => v

theorem text_oneNaN (v : Value) : v.oneNaN.text = v.text := by
  cases v <;> simp [oneNaN, text, Binary.text, Binary.chars_oneNaN]

def words : Value → List (List Char)
  | .bool b => [(if b then "true" else "false").toList]
  | .int s _ bits => [intChars (s.read bits)]
  | .float _ x => [x.chars]
  | .complex _ re im => [re.chars, im.chars]

theorem wordsOf_text (v : Value) : wordsOf v.text.toList = v.words := by
  cases v with
  | bool b => cases b <;> decide
  | int s w bits =>
    rw [text, intText, String.toList_ofList, (word_intChars _).wordsOf_eq, words]
  | float p x => exact x.wordsOf_text
  | complex p re im =>
    simp only [text, String.toList_append]
    rw [wordsOf_before _ (by decide), wordsOf_between _ _ (by decide), wordsOf_lead (by decide),
      re.wordsOf_text, im.wordsOf_text]
    rfl

/-- Values of one type with the same words are the same but for NaNs. -/
theorem oneNaN_of_words {v w : Value} (type : v.type = w.type) (words : v.words = w.words) :
    v.oneNaN = w.oneNaN := by
  cases v with
  | bool b =>
    cases w with
    | bool b' => cases b <;> cases b' <;> first | rfl | cases words
    | _ => cases type
  | int s width bits =>
    cases w with
    | int s' width' bits' =>
      cases type
      have same := intChars_inj.mp (List.cons.inj words).1
      rw [s.read_inj.mp same]
    | _ => cases type
  | float p x =>
    cases w with
    | float p' y =>
      cases type
      rw [oneNaN, oneNaN, Binary.oneNaN_of_chars (List.cons.inj words).1]
    | _ => cases type
  | complex p re im =>
    cases w with
    | complex p' re' im' =>
      cases type
      simp only [Value.words, List.cons.injEq, and_true] at words
      rw [oneNaN, oneNaN, Binary.oneNaN_of_chars words.1, Binary.oneNaN_of_chars words.2]
    | _ => cases type

end Value

end ScalarLowering
