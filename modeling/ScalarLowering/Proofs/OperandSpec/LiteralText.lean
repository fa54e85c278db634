import ScalarLowering.Proofs.Binary.Shortest
import ScalarLowering.Proofs.OperandSpec.IntegerBinding

set_option autoImplicit false

/- Literals that are written and read again. An integer is written without a point
and a finite double never, so each is read as what it was. -/

namespace ScalarLowering

variable {x : Binary .double}

theorem literalText_of_int (i : Int64) : LiteralText (Literal.int i).text.toList (.int i) := by
  rw [Literal.text, intText, String.toList_ofList]
  exact .int (integerText_intChars i.toInt)

theorem literalText_of_finite (finite : x.isFinite = true) :
    LiteralText (Literal.float x).text.toList (.float x) := by
  obtain ⟨⟨d, number, nearest⟩, other⟩ :=
    Binary.exists_numberText_chars (of_decide_eq_true finite)
  rw [Literal.text, Binary.text, String.toList_ofList]
  exact .float (fun i => other i.toInt) number nearest

/-- Where a value is bound, infinities are read as well. -/
theorem bindingText_of_number (t : NumType) (number : x.isNaN = false) :
    BindingText t (Literal.float x).text.toList (.float x) := by
  rcases Binary.isFinite_or_isInfinite number with finite | infinite
  · exact .literal (literalText_of_finite finite)
  · rw [Binary.eq_infinite infinite]
    cases x.negative with
    | false => exact .infinity
    | true => exact .minusInfinity

namespace OperandSpec

theorem parse_literal {text : String} {l : Literal} (literal : LiteralText text.toList l) :
    parse text = .ok (.literal l) :=
  parseWithin_of_leaf (.refl _) (.literal literal) maxTupleDepth

/-- Every integer literal and every finite floating literal is read back from its text as itself,
the sign of a zero included. Behind `float64=` the text of a double, which may be infinite, binds
a parameter to that double. -/
theorem literal_text_reads_back :
    (∀ i : Int64, parse (Literal.int i).text = .ok (.literal (.int i))) ∧
    (∀ x : Binary .double, x.isFinite = true →
      parse (Literal.float x).text = .ok (.literal (.float x))) ∧
    ∀ (x : Binary .double) (k : Kernel), x.isNaN = false →
      parse ("float64=" ++ (Literal.float x).text) =
          .ok (.param .float64 (some (.float x))) ∧
        (materialize (.param .float64 (some (.float x)))).run k =
          .ok (⟨[.value ⟨k.size⟩], [(k.paramCount, .float .double x)], true⟩,
            k.addParam (.scalar .float64)) := by
  refine ⟨fun i => parse_literal (literalText_of_int i),
    fun x finite => parse_literal (literalText_of_finite finite), ?_⟩
  intro x k number
  constructor
  · have lead : "float64=" = NumType.float64.name ++ "=" := by decide
    rw [lead]
    exact parse_binding (bindingText_of_number .float64 number)
  · have bound : (Value.ofLiteral (.float x)).cast .float64 = .float .double x :=
      Value.cast_of_type rfl
    rw [← bound]
    rfl

theorem negative_zero_reads_back :
    parse "-0.0" = .ok (.literal (.float (.zero true))) ∧
      parse "float64=-inf" = .ok (.param .float64 (some (.float (.infinite true)))) := by
  have zero : (Literal.float (.zero true)).text = "-0.0" := by decide
  have infinity : "float64=" ++ (Literal.float (.infinite true)).text = "float64=-inf" := by decide
  obtain ⟨_, finite, bound⟩ := literal_text_reads_back
  rw [← zero, ← infinity]
  exact ⟨finite (.zero true) (by decide), (bound (.infinite true) .empty (by decide)).1⟩

end OperandSpec

end ScalarLowering
