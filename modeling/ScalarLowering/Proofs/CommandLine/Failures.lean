import ScalarLowering.CommandLine.Commands
import ScalarLowering.Proofs.OperandSpec.Bound

set_option autoImplicit false

/- What makes the lowering of a call on described operands fail, and how: in either
format with the same exit code. -/

namespace ScalarLowering

/-- The text stands for the key, as a name or as the spelling of a host callable. -/
inductive Key.Spells (text : String) : Bool → Key → Prop
  | name : Spells text false (.name text)
  | host {callable : HostCallable} (known : HostCallable.ofSpelling? text = some callable) :
    Spells text true (.host callable)

/-- The operands that the texts describe, in their order. -/
abbrev OperandSpec.ParsedFrom (texts : List String) (specs : List OperandSpec) : Prop :=
  List.Forall₂ (fun text spec => OperandSpec.parse text = .ok spec) texts specs

/-- The handler declines the described operands, and nothing but their parameters is recorded. -/
def Handler.Declines (h : Handler) (specs : List OperandSpec) (reason : Decline) : Prop :=
  ∃ m k, (OperandSpec.materializeAll specs).run .empty = .ok (m, k) ∧
    (h.lower m.operands).run k = .ok (.error reason, k)

/-- The failures of a call, by the first thing that goes wrong: their exit code, and their message
in either format. -/
inductive Fails (config : RegistryConfig) (key : String) (operands : List String) (host : Bool) :
    Nat → (OutputFormat → String) → Prop
  | unknownHost (asked : host = true) (unknown : HostCallable.ofSpelling? key = none) :
    Fails config key operands host 1
      fun _ => "Error: " ++ ("`" ++ key ++ "` is not a known host callable")
  | operand {k : Key} {before after : List String} {text : String} {specs : List OperandSpec}
    {e : OperandError} (spells : k.Spells key host) (split : operands = before ++ text :: after)
    (parsed : OperandSpec.ParsedFrom before specs) (malformed : OperandSpec.parse text = .error e) :
    Fails config key operands host 1
      fun _ => "Error: " ++ ("invalid operand `" ++ text ++ "`: " ++ e.message)
  | unregistered {k : Key} {specs : List OperandSpec} (spells : k.Spells key host)
    (parsed : OperandSpec.ParsedFrom operands specs)
    (unresolved : (Registry.ofConfig config).resolve? k = none) :
    Fails config key operands host 1
      fun format => (CommandFailure.ofLowering format (.unknownBuiltin k)).message
  | declined {k : Key} {specs : List OperandSpec} {name : String} {h : Handler} {reason : Decline}
    (spells : k.Spells key host) (parsed : OperandSpec.ParsedFrom operands specs)
    (resolved : (Registry.ofConfig config).resolve? k = some (name, h))
    (declines : h.Declines specs reason) :
    Fails config key operands host 2
      fun format => (CommandFailure.ofLowering format (.unsupported name reason)).message

section

variable {config : RegistryConfig} {key : String} {operands : List String} {host : Bool}
variable {k : Key} {specs : List OperandSpec}

theorem Key.ofText_of_spells (spells : k.Spells key host) : Key.ofText key host = .ok k := by
  cases spells with
  | name => rfl
  | host known => rw [ofText, if_pos rfl, known]

theorem Key.ofText_of_unknown (unknown : HostCallable.ofSpelling? key = none) :
    Key.ofText key true =
      .error (.ofInput ("`" ++ key ++ "` is not a known host callable")) := by
  rw [ofText, if_pos rfl, unknown]

theorem Key.spells_or_unknown (key : String) (host : Bool) :
    (∃ k, Key.Spells key host k) ∨ host = true ∧ HostCallable.ofSpelling? key = none := by
  cases host with
  | false => exact .inl ⟨_, .name⟩
  | true =>
    cases known : HostCallable.ofSpelling? key with
    | none => exact .inr ⟨rfl, rfl⟩
    | some callable => exact .inl ⟨_, .host known⟩

namespace OperandSpec

theorem mapM_parseArgument (parsed : ParsedFrom operands specs) :
    operands.mapM parseArgument = .ok specs := by
  induction parsed with
  | nil => rfl
  | cons first _ ih =>
    rw [List.mapM_cons, ih, parseArgument, first]
    rfl

theorem mapM_parseArgument_of_malformed {before after : List String} {text : String}
    {e : OperandError} (parsed : ParsedFrom before specs) (malformed : parse text = .error e) :
    (before ++ text :: after).mapM parseArgument =
      .error (.ofInput ("invalid operand `" ++ text ++ "`: " ++ e.message)) := by
  rw [List.mapM_append, mapM_parseArgument parsed, List.mapM_cons, parseArgument, malformed]
  rfl

/-- Either all texts describe operands, or there is a first one that does not. -/
theorem parsed_or_malformed (operands : List String) :
    (∃ specs, ParsedFrom operands specs) ∨
      ∃ before text after specs e, operands = before ++ text :: after ∧
        ParsedFrom before specs ∧ parse text = .error e := by
  induction operands with
  | nil => exact .inl ⟨[], .nil⟩
  | cons first rest ih =>
    cases outcome : parse first with
    | error e => exact .inr ⟨[], first, rest, [], e, rfl, .nil, outcome⟩
    | ok spec =>
      rcases ih with ⟨specs, parsed⟩ | ⟨before, text, after, specs, e, rfl, parsed, malformed⟩
      · exact .inl ⟨spec :: specs, .cons outcome parsed⟩
      · exact .inr ⟨first :: before, text, after, spec :: specs, e, rfl, .cons outcome parsed,
          malformed⟩

end OperandSpec

theorem LoweredCall.ofSpecs_eq {r : Registry} {m : Materialized} {kernel kernel' : Kernel}
    {outcome : Except LoweringError ValueId}
    (materialized : (OperandSpec.materializeAll specs).run .empty = .ok (m, kernel))
    (lowered : (r.lowerCall k m.operands).run kernel = .ok (outcome, kernel')) :
    LoweredCall.ofSpecs r k specs = .ok ⟨kernel', m, outcome⟩ := by
  have built : (do
      let m ← OperandSpec.materializeAll specs
      return (m, ← r.lowerCall k m.operands) : Build _).run .empty =
        .ok ((m, outcome), kernel') := by
    rw [StateT.run_bind, materialized, ok_bind, StateT.run_bind, lowered]
    rfl
  rw [ofSpecs, built]
  rfl

theorem lowerReport_of_call (spells : k.Spells key host)
    (parsed : OperandSpec.ParsedFrom operands specs) {call : LoweredCall}
    (lowered : LoweredCall.ofSpecs (.ofConfig config) k specs = .ok call) (format : OutputFormat) :
    lowerReport config key operands host format =
      (call.result.mapError (.ofLowering format)).map fun result =>
        { key := k, kernel := call.kernel, result
          value := if call.operands.fullyBound then call.eval? result else none } := by
  rw [lowerReport, Key.ofText_of_spells spells, ok_bind, OperandSpec.mapM_parseArgument parsed,
    ok_bind, lowered]
  obtain ⟨kernel, m, outcome⟩ := call
  cases outcome <;> rfl

theorem lowerReport_of_fails {code : Nat} {message : OutputFormat → String}
    (fails : Fails config key operands host code message) (format : OutputFormat) :
    lowerReport config key operands host format = .error ⟨message format, code⟩ := by
  cases fails with
  | unknownHost asked unknown =>
    rw [lowerReport, asked, Key.ofText_of_unknown unknown]
    rfl
  | operand spells split parsed malformed =>
    rw [lowerReport, Key.ofText_of_spells spells, ok_bind, split,
      OperandSpec.mapM_parseArgument_of_malformed parsed malformed]
    rfl
  | @unregistered k specs spells parsed unresolved =>
    obtain ⟨m, kernel, materialized, _⟩ := OperandSpec.materializeAll_run specs .empty
    have lowered : ((Registry.ofConfig config).lowerCall k m.operands).run kernel =
        .ok (.error (.unknownBuiltin k), kernel) := by
      rw [Registry.lowerCall, unresolved]
      rfl
    rw [lowerReport_of_call spells parsed (LoweredCall.ofSpecs_eq materialized lowered)]
    rfl
  | @declined k specs name h reason spells parsed resolved declines =>
    obtain ⟨m, kernel, materialized, refused⟩ := declines
    have lowered : ((Registry.ofConfig config).lowerCall k m.operands).run kernel =
        .ok (.error (.unsupported name reason), kernel) := by
      simp [Registry.lowerCall, resolved, refused, Except.mapError]
    rw [lowerReport_of_call spells parsed (LoweredCall.ofSpecs_eq materialized lowered)]
    rfl

/-- The call is lowered. -/
structure Lowers (config : RegistryConfig) (key : String) (operands : List String) (host : Bool)
    (k : Key) (specs : List OperandSpec) (call : LoweredCall) (id : ValueId) : Prop where
  spells : k.Spells key host
  parsed : OperandSpec.ParsedFrom operands specs
  lowered : LoweredCall.ofSpecs (.ofConfig config) k specs = .ok call
  result : call.result = .ok id

variable {call : LoweredCall} {id : ValueId}

theorem Lowers.facts (lowers : Lowers config key operands host k specs call id) :
    call.kernel.Reachable ∧ (∃ t, call.kernel.scalarType? id = some t) ∧
      (call.operands.fullyBound = false ↔ ∃ spec ∈ specs, spec.LacksValue) := by
  obtain ⟨m, kernel, materialized, adds⟩ := OperandSpec.materializeAll_run specs .empty
  obtain ⟨outcome, kernel', lowered⟩ : ∃ outcome kernel',
      ((Registry.ofConfig config).lowerCall k m.operands).run kernel = .ok (outcome, kernel') := by
    rcases (Registry.ofConfig config).lowerCall_cases kernel k m.operands with
      ⟨e, run⟩ | ⟨_, _, _, id, kernel', _, _, run, _⟩
    · exact ⟨_, kernel, run⟩
    · exact ⟨_, kernel', run⟩
  have built := lowers.lowered
  rw [LoweredCall.ofSpecs_eq materialized lowered] at built
  cases built
  obtain rfl : outcome = .ok id := lowers.result
  exact ⟨.call (adds.reachable .empty) lowered, Registry.lowerCall_scalar lowered,
    OperandSpec.fullyBound_materializeAll materialized⟩

/-- Whatever is typed, it fails in one of the ways above, or the call is lowered. -/
theorem fails_or_lowers (config : RegistryConfig) (key : String) (operands : List String)
    (host : Bool) :
    (∃ code message, Fails config key operands host code message) ∨
      ∃ k specs call id, Lowers config key operands host k specs call id := by
  rcases Key.spells_or_unknown key host with ⟨k, spells⟩ | ⟨asked, unknown⟩
  · rcases OperandSpec.parsed_or_malformed operands with
      ⟨specs, parsed⟩ | ⟨before, text, after, specs, e, split, parsed, malformed⟩
    · obtain ⟨m, kernel, materialized, _⟩ := OperandSpec.materializeAll_run specs .empty
      cases resolved : (Registry.ofConfig config).resolve? k with
      | none => exact .inl ⟨1, _, .unregistered spells parsed resolved⟩
      | some entry =>
        obtain ⟨name, h⟩ := entry
        cases planned : h.plan kernel m.operands with
        | error reason =>
          have declines : h.Declines specs reason :=
            ⟨m, kernel, materialized, Handler.lower_of_error planned⟩
          exact .inl ⟨2, _, .declined spells parsed resolved declines⟩
        | ok plan =>
          obtain ⟨id, kernel', lowered, _⟩ := Registry.lowerCall_of_plan resolved planned
          exact .inr ⟨k, specs, _, id, spells, parsed, LoweredCall.ofSpecs_eq materialized lowered,
            rfl⟩
    · exact .inl ⟨1, _, .operand spells split parsed malformed⟩
  · exact .inl ⟨1, _, .unknownHost asked unknown⟩

end

end ScalarLowering
