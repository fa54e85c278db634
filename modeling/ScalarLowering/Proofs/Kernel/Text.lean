import ScalarLowering.Kernel.Text
import ScalarLowering.Proofs.Kernel.Typing
import ScalarLowering.Proofs.Text.Lines
import ScalarLowering.Proofs.Text.Words

set_option autoImplicit false

/- The lines of a kernel as texts. Each stays in its line and starts with the mark
of identifiers; the mark of symbols is found in the lines of calls only, right
before the symbol. -/

namespace ScalarLowering

@[simp] theorem Binary.inLine_text {p : Precision} (x : Binary p) : InLine x.text.toList := by
  rw [text, String.toList_ofList, chars, absChars]
  split_ifs <;> simp

@[simp] theorem NumType.inLine_name (t : NumType) : InLine t.name.toList := by
  have table : ∀ t ∈ all, InLine t.name.toList := by decide
  exact table t (mem_all t)

@[simp] theorem Value.inLine_text (v : Value) : InLine v.text.toList := by
  cases v with
  | bool b => cases b <;> decide
  | int s w bits =>
    rw [text, intText, String.toList_ofList]
    exact inLine_intChars _
  | float p x => exact x.inLine_text
  | complex p re im => simp [text]

@[simp] theorem ValueId.inLine_text (id : ValueId) : InLine id.text.toList := by
  simp [text]

@[simp] theorem ValueType.inLine_text (type : ValueType) : InLine type.text.toList := by
  cases type with
  | scalar t => exact t.inLine_name
  | array elem length => cases length <;> simp [text]

@[simp] theorem Predicate.inLine_name (p : Predicate) : InLine p.name.toList := by
  cases p <;> decide

namespace Operation

/-- The symbol that a call names. -/
def symbol? : Operation → Option String
  | .call symbol .. => some symbol
  | _ => none

theorem inLine_text {o : Operation} (other : o.symbol? = none) : InLine o.text.toList := by
  cases o with
  | call symbol args template decorated => cases other
  | _ => simp [text]

/-- The text of a call is told apart by the mark, with which its symbol begins. -/
theorem text_call (symbol : String) (args : List ValueId) (template : ValueId) (decorated : Bool) :
    ∃ before after, InLine before ∧ InLine after ∧
      (call symbol args template decorated).text.toList =
        before ++ '@' :: (symbol.toList ++ '(' :: after) := by
  refine ⟨("call " ++ if decorated then "decorated " else "").toList,
    (String.intercalate ", " (args.map (·.text)) ++ ")").toList, ?_, ?_, ?_⟩
  · cases decorated <;> decide
  · rw [String.toList_append, String.toList_intercalate, inLine_append]
    refine ⟨inLine_intercalate (by decide) ?_, by decide⟩
    simp only [List.map_map, List.forall_mem_map]
    exact fun arg _ => arg.inLine_text
  · simp [text]

end Operation

/-- The symbol in the line of a call, which stands between the mark and the opening parenthesis. -/
def callSymbol? (line : String) : Option String :=
  match line.toList.dropWhile (· ≠ '@') with
  | [] => none
  | _ :: behind => some (String.ofList (behind.takeWhile (· ≠ '(')))

theorem callSymbol?_of_inLine {line : String} (inLine : InLine line.toList) :
    callSymbol? line = none := by
  have unmarked : line.toList.dropWhile (· ≠ '@') = [] :=
    List.dropWhile_eq_nil_iff.mpr fun c member => decide_eq_true (inLine c member).2
  rw [callSymbol?, unmarked]

theorem callSymbol?_of_mark {line symbol : String} {before after : List Char}
    (inLine : InLine before) (unopened : '(' ∉ symbol.toList)
    (parts : line.toList = before ++ '@' :: (symbol.toList ++ '(' :: after)) :
    callSymbol? line = some symbol := by
  have skipped : ∀ c ∈ before, decide (c ≠ '@') = true :=
    fun c member => decide_eq_true (inLine c member).2
  have taken : ∀ c ∈ symbol.toList, decide (c ≠ '(') = true :=
    fun c member => decide_eq_true fun same => unopened (same ▸ member)
  have behind : line.toList.dropWhile (· ≠ '@') = '@' :: (symbol.toList ++ '(' :: after) := by
    rw [parts, List.dropWhile_append_of_pos skipped, List.dropWhile_cons_of_neg (by decide)]
  have name : (symbol.toList ++ '(' :: after).takeWhile (· ≠ '(') = symbol.toList := by
    rw [List.takeWhile_append_of_pos taken, List.takeWhile_cons_of_neg (by decide),
      List.append_nil]
  simp only [callSymbol?, behind, name, String.ofList_toList]

example : callSymbol? "%2 = call @fabsf(%0) : float32" = some "fabsf" := rfl

theorem Routine.word_symbol {r : Routine} {t : NumType} {symbol : String}
    (exported : r.symbol? t = some symbol) : Word symbol.toList := by
  cases t with
  | float p =>
    cases exported
    cases r with
    | magnitude => cases p <;> decide
    | math f => cases f <;> cases p <;> decide
    | helper f => cases f <;> cases p <;> decide
  | complex p =>
    cases exported
    cases r with
    | magnitude => cases p <;> decide
    | math f => cases f <;> cases p <;> decide
    | helper f => cases f <;> cases p <;> decide
  | _ => cases exported

namespace Instruction

variable {k : Kernel} {position : Nat} {i : Instruction}

/-- The symbols of well-typed calls are those of routines. -/
theorem WellTyped.word_symbol (typed : i.WellTyped k position) {symbol : String}
    (called : i.operation.symbol? = some symbol) : Word symbol.toList := by
  cases typed with
  | call accepted exported count arguments before constant =>
    cases called
    exact Routine.word_symbol exported
  | _ => cases called

theorem head?_line (id : ValueId) (i : Instruction) : (i.line id).toList.head? = some '%' := by
  simp [line, ValueId.text]

/-- A line is unmarked, or it has one mark, with which its symbol begins. -/
theorem WellTyped.line_cases (typed : i.WellTyped k position) (id : ValueId) :
    (i.operation.symbol? = none ∧ InLine (i.line id).toList) ∨
      ∃ symbol before after, i.operation.symbol? = some symbol ∧ InLine before ∧ InLine after ∧
        (i.line id).toList = before ++ '@' :: (symbol.toList ++ '(' :: after) := by
  obtain ⟨type, operation⟩ := i
  cases called : operation.symbol? with
  | none =>
    have inLine := Operation.inLine_text called
    exact .inl ⟨rfl, by simp [line, inLine]⟩
  | some symbol =>
    obtain ⟨symbol, args, template, decorated, rfl⟩ :
        ∃ symbol args template decorated, operation = .call symbol args template decorated := by
      cases operation with
      | call symbol args template decorated => exact ⟨_, _, _, _, rfl⟩
      | _ => cases called
    cases called
    obtain ⟨before, after, inLine, inLine', parts⟩ :=
      Operation.text_call symbol args template decorated
    refine .inr ⟨symbol, (id.text ++ " = ").toList ++ before, after ++ (" : " ++ type.text).toList,
      rfl, ?_, ?_, ?_⟩
    · simp [inLine]
    · simp [inLine']
    · simp [line, parts]

/-- A line break stands in no line. -/
theorem WellTyped.single_line (typed : i.WellTyped k position) (id : ValueId) :
    '\n' ∉ (i.line id).toList := by
  rcases typed.line_cases id with ⟨_, inLine⟩ | ⟨symbol, before, after, called, first, last, parts⟩
  · exact inLine.not_mem
  · have middle := (typed.word_symbol called).inLine
    rw [parts]
    simp [first.not_mem, middle.not_mem, last.not_mem]

/-- From the line of an instruction its symbol is read, if it has one. -/
theorem WellTyped.callSymbol?_line (typed : i.WellTyped k position) (id : ValueId) :
    callSymbol? (i.line id) = i.operation.symbol? := by
  rcases typed.line_cases id with ⟨none, inLine⟩ | ⟨symbol, before, after, called, first, _, parts⟩
  · rw [callSymbol?_of_inLine inLine, none]
  · have unopened : '(' ∉ symbol.toList := (typed.word_symbol called).not_mem (by decide)
    rw [callSymbol?_of_mark first unopened parts, called]

end Instruction

namespace Kernel

variable {k : Kernel}

theorem lines_eq (k : Kernel) : k.lines = k.definitions.toList.map (·.line) := rfl

theorem WellTyped.of_mem (typed : k.WellTyped) {d : Definition}
    (member : d ∈ k.definitions.toList) : ∃ position, d.instruction.WellTyped k position := by
  obtain ⟨position, found⟩ := List.mem_iff_getElem?.mp member
  rw [Array.getElem?_toList] at found
  exact ⟨position, typed ⟨position⟩ d.instruction (instruction?_of_definition found)⟩

theorem WellTyped.single_lines (typed : k.WellTyped) : ∀ line ∈ k.lines, '\n' ∉ line.toList := by
  rw [lines_eq, List.forall_mem_map]
  intro d member
  obtain ⟨position, typed⟩ := typed.of_mem member
  exact typed.single_line d.id

theorem head?_lines (k : Kernel) : ∀ line ∈ k.lines, line.toList.head? = some '%' := by
  rw [lines_eq, List.forall_mem_map]
  exact fun d _ => d.instruction.head?_line d.id

theorem externalSymbols_eq (k : Kernel) :
    k.externalSymbols = k.definitions.toList.filterMap (·.instruction.operation.symbol?) := rfl

/-- The symbols of a kernel are those that the lines of its calls show, in the same order. -/
theorem WellTyped.callSymbols_lines (typed : k.WellTyped) :
    k.lines.filterMap callSymbol? = k.externalSymbols := by
  rw [lines_eq, List.filterMap_map, externalSymbols_eq]
  refine List.filterMap_congr fun d member => ?_
  obtain ⟨position, typed⟩ := typed.of_mem member
  exact typed.callSymbol?_line d.id

end Kernel

end ScalarLowering
