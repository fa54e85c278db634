import ScalarLowering.Proofs.CommandLine.Failures
import ScalarLowering.Proofs.CommandLine.Page
import ScalarLowering.Proofs.Kernel.Text

set_option autoImplicit false

/- What a lowered call is reported with. The lines of the text and the document
have one story to tell, and the text alone suffices to know it. -/

namespace ScalarLowering

/-- What a reader of either format learns. -/
structure Story where
  instructions : List String
  result : String
  type : String
  /-- The value or why there is none; nothing at all as long as a parameter lacks a value. -/
  value : Option (Except String String)

namespace Story

def valueLines (s : Story) : List String :=
  match s.value with
  | none => []
  | some (.ok v) => ["value: " ++ v]
  | some (.error e) => ["value: <not evaluable: " ++ e ++ ">"]

def lines (s : Story) : List String :=
  s.instructions ++ ("result: " ++ s.result ++ " : " ++ s.type) :: s.valueLines

def document (s : Story) (key : Key) : Document :=
  .object
    [("eval_error", match s.value with | some (.error e) => .text e | _ => .null),
     ("externals", .texts (s.instructions.filterMap callSymbol?)),
     ("instructions", .texts s.instructions),
     ("key", .text key.text),
     ("result", .text s.result),
     ("type", .text s.type),
     ("value", match s.value with | some (.ok v) => .text v | _ => .null)]

end Story

/-- The text of an outcome. -/
def shown : Except EvalError Value → Except String String
  | .ok v => .ok v.text
  | .error e => .error e.message

theorem boundValue_inLine (bound : Nat → Option Value) (index : Nat) (t : NumType) :
    Outcome (fun e => InLine e.message.toList) t (boundValue bound index t) := by
  unfold boundValue
  cases bound index with
  | none =>
    show InLine (EvalError.unbound index).message.toList
    unfold EvalError.message
    simp
  | some v =>
    by_cases type : v.type = t
    · simp only [if_pos type]
      exact type
    · simp only [if_neg type]
      show InLine (EvalError.bindingType index (.scalar t) v.type).message.toList
      unfold EvalError.message
      simp

theorem EvalError.LacksErf.inLine {e : EvalError} (lacksErf : e.LacksErf) :
    InLine e.message.toList := by
  obtain ⟨p, rfl⟩ := lacksErf
  cases p <;> decide

/-- A scalar comes to a value of its type or to an error whose message stays in its line. -/
theorem Kernel.WellTyped.outcome_inLine {k : Kernel} (typed : k.WellTyped)
    (bound : Nat → Option Value) {id : ValueId} {t : NumType} (scalar : k.scalarType? id = some t) :
    Outcome (fun e => InLine e.message.toList) t (k.demand bound id) :=
  outcome_from (fun id i _ recorded => typed id i recorded)
    (fun _ _ early => absurd early (Nat.not_lt_zero _)) (fun _ lacksErf => lacksErf.inLine)
    (fun _ t index _ _ => boundValue_inLine bound index t) id t scalar

namespace LoweringReport

variable {r : LoweringReport} {t : NumType}

/-- The story of a report whose result has type `t`. -/
def story (r : LoweringReport) (t : NumType) : Story :=
  ⟨r.kernel.lines, r.result.text, t.name, r.value.map shown⟩

theorem valueLine_eq (r : LoweringReport) (t : NumType) :
    text.valueLine r = String.join ((r.story t).valueLines.map (· ++ "\n")) := by
  unfold text.valueLine Story.valueLines story
  cases r.value with
  | none => rfl
  | some outcome =>
    cases outcome with
    | ok v => rfl
    | error e =>
      have ending : ">\n" = ">" ++ "\n" := rfl
      simp only [Option.map_some, shown, List.map_cons, List.map_nil, String.join_cons,
        String.join_nil, String.append_empty, String.append_assoc, ending]

theorem text_eq (scalar : r.kernel.scalarType? r.result = some t) :
    r.text = String.join ((r.story t).lines.map (· ++ "\n")) := by
  have type : ((r.kernel.typeOf? r.result).map (·.text)).getD "?" = t.name := by
    rw [Kernel.typeOf?_of_scalarType? scalar]
    rfl
  rw [text, type, valueLine_eq r t, Story.lines, List.map_append, List.map_cons,
    String.join_append, String.join_cons]
  simp only [story, Kernel.text, String.append_assoc]

theorem document_eq (typed : r.kernel.WellTyped)
    (scalar : r.kernel.scalarType? r.result = some t) :
    r.document = (r.story t).document r.key := by
  rw [document, Story.document, scalar, ← typed.callSymbols_lines]
  unfold story
  cases r.value with
  | none => rfl
  | some outcome => cases outcome <;> rfl

/-- No line of the story is broken. -/
theorem single_lines_story (typed : r.kernel.WellTyped) (t : NumType)
    (messages : ∀ e, r.value = some (.error e) → InLine e.message.toList) :
    ∀ line ∈ (r.story t).lines, '\n' ∉ line.toList := by
  have result : InLine ("result: " ++ r.result.text ++ " : " ++ t.name).toList := by simp
  have values : ∀ line ∈ (r.story t).valueLines, InLine line.toList := by
    unfold Story.valueLines story
    cases told : r.value with
    | none => exact List.forall_mem_nil _
    | some outcome =>
      cases outcome with
      | ok v => simp [shown]
      | error e => simp [shown, messages e told]
  intro line member
  rcases List.mem_append.mp member with instruction | later
  · exact typed.single_lines line instruction
  · rcases List.mem_cons.mp later with rfl | value
    · exact result.not_mem
    · exact (values line value).not_mem

end LoweringReport

section

variable {config : RegistryConfig} {key : String} {operands : List String} {host : Bool}
variable {k : Key} {specs : List OperandSpec} {call : LoweredCall} {id : ValueId}

/-- Both formats tell the story of a lowered call. -/
structure Tells (k : Key) (specs : List OperandSpec) (call : LoweredCall) (id : ValueId)
    (story : Story) (text page : String) : Prop where
  /-- The lines of instructions come first and are told from the others by their beginning. -/
  lines : linesOf text = story.lines
  begins : ∀ line ∈ story.instructions, line.toList.head? = some '%'
  /-- The page is that of one document. -/
  page : ∀ d : Document, page = d.page ↔ d = story.document k
  instructions : story.instructions = call.kernel.lines
  result : story.result = id.text
  type : ∃ t, call.kernel.scalarType? id = some t ∧ story.type = t.name
  silent : story.value = none ↔ ∃ spec ∈ specs, spec.LacksValue
  value : ∀ told, story.value = some told →
    ∃ outcome, call.eval? id = some outcome ∧ told = shown outcome

/-- The value of a lowered call, as far as it is reported. -/
def LoweredCall.reported? (call : LoweredCall) (id : ValueId) : Option (Except EvalError Value) :=
  if call.operands.fullyBound then call.eval? id else none

theorem LoweredCall.eval?_of_reported {outcome : Except EvalError Value}
    (reported : call.reported? id = some outcome) : call.eval? id = some outcome := by
  rw [reported?] at reported
  split at reported
  · exact reported
  · cases reported

/-- A lowered call is reported with its value unless some parameter lacks one. -/
theorem Lowers.report (lowers : Lowers config key operands host k specs call id)
    (format : OutputFormat) :
    lowerReport config key operands host format =
      .ok ⟨k, call.kernel, id, call.reported? id⟩ := by
  rw [lowerReport_of_call lowers.spells lowers.parsed lowers.lowered, lowers.result]
  rfl

/-- Nothing is reported exactly if some parameter lacks a value, and errors stay in their line. -/
theorem Lowers.reported (lowers : Lowers config key operands host k specs call id) :
    (call.reported? id = none ↔ ∃ spec ∈ specs, spec.LacksValue) ∧
      ∀ e, call.reported? id = some (.error e) → InLine e.message.toList := by
  obtain ⟨reachable, ⟨t, scalar⟩, complete⟩ := lowers.facts
  have typed := reachable.wellTyped
  have evaluated : call.eval? id = some (call.kernel.demand call.operands.bindings.value? id) :=
    typed.ordered.eval?_eq ..
  constructor
  · rw [← complete, LoweredCall.reported?, evaluated]
    cases call.operands.fullyBound <;> simp
  · intro e failed
    have outcome := typed.outcome_inLine call.operands.bindings.value? scalar
    have same := LoweredCall.eval?_of_reported failed
    rw [evaluated] at same
    rw [Option.some.inj same] at outcome
    exact outcome

theorem Lowers.tells (lowers : Lowers config key operands host k specs call id) :
    ∃ story text page, lowerOutput config key operands host .text = .ok text ∧
      lowerOutput config key operands host .json = .ok page ∧
      Tells k specs call id story text page := by
  obtain ⟨reachable, ⟨t, scalar⟩, _⟩ := lowers.facts
  obtain ⟨silent, messages⟩ := lowers.reported
  have typed := reachable.wellTyped
  let r : LoweringReport := ⟨k, call.kernel, id, call.reported? id⟩
  have report (format : OutputFormat) : lowerReport config key operands host format = .ok r :=
    lowers.report format
  refine ⟨r.story t, r.text, r.document.page, ?_, ?_, ?_⟩
  · rw [lowerOutput, report]
    rfl
  · rw [lowerOutput, report]
    rfl
  · exact
      { lines := by rw [r.text_eq scalar, linesOf_join (r.single_lines_story typed t messages)]
        begins := call.kernel.head?_lines
        page := by
          intro d
          rw [r.document_eq typed scalar]
          exact Document.page_injective.eq_iff.trans eq_comm
        instructions := rfl
        result := rfl
        type := ⟨t, scalar, rfl⟩
        silent := Option.map_eq_none_iff.trans silent
        value := by
          intro text shows
          obtain ⟨outcome, computed, rfl⟩ := Option.map_eq_some_iff.mp shows
          exact ⟨outcome, LoweredCall.eval?_of_reported computed, rfl⟩ }

end

theorem lowerOutput_of_fails {config : RegistryConfig} {key : String} {operands : List String}
    {host : Bool} {code : Nat} {message : OutputFormat → String}
    (fails : Fails config key operands host code message) (format : OutputFormat) :
    lowerOutput config key operands host format = .error ⟨message format, code⟩ := by
  rw [lowerOutput, lowerReport_of_fails fails]
  rfl

/-- The formats agree on whether a call can be lowered, and on the exit code if it cannot. If it
can, they tell the same story. -/
theorem lowerOutput_formats_agree (config : RegistryConfig) (key : String) (operands : List String)
    (host : Bool) :
    (∀ format failure, lowerOutput config key operands host format = .error failure ↔
      ∃ code message, Fails config key operands host code message ∧
        failure = ⟨message format, code⟩) ∧
    ((∃ code message, Fails config key operands host code message) ∨
      ∃ k specs call id story text page, Lowers config key operands host k specs call id ∧
        lowerOutput config key operands host .text = .ok text ∧
        lowerOutput config key operands host .json = .ok page ∧
        Tells k specs call id story text page) := by
  rcases fails_or_lowers config key operands host with
    ⟨code, message, fails⟩ | ⟨k, specs, call, id, lowers⟩
  · refine ⟨fun format failure => ?_, .inl ⟨code, message, fails⟩⟩
    constructor
    · intro failed
      rw [lowerOutput_of_fails fails] at failed
      exact ⟨code, message, fails, (Except.error.inj failed).symm⟩
    · rintro ⟨code', message', fails', rfl⟩
      exact lowerOutput_of_fails fails' format
  · obtain ⟨story, text, page, asText, asPage, tells⟩ := lowers.tells
    refine ⟨fun format failure => iff_of_false ?_ ?_,
      .inr ⟨k, specs, call, id, story, text, page, lowers, asText, asPage, tells⟩⟩
    · cases format with
      | text => simp [asText]
      | json => simp [asPage]
    · rintro ⟨code, message, fails, _⟩
      rw [lowerOutput_of_fails fails] at asText
      cases asText

end ScalarLowering
