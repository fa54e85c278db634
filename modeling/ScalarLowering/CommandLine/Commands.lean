import ScalarLowering.CommandLine.Document
import ScalarLowering.Kernel.Text
import ScalarLowering.Lowering
import ScalarLowering.OperandSpec.Parsing

set_option autoImplicit false

/- The commands: lowering one call and showing the kernel, listing the registered
builtins, and naming a math library symbol. A command either prints a text or
fails with a message and an exit code.

A call that cannot be lowered is reported as a diagnostic. For a reader its message
holds what a miette report shows, the code, the message and the help, one of them a
line; frames, colours and the wrapping to the width of a terminal are left out. In
JSON it is the object that serde_json writes without any layout, its keys in
alphabetical order. -/

namespace ScalarLowering

inductive OutputFormat where
  | text
  | json
deriving DecidableEq, Repr

def OutputFormat.ofName? : String → Option OutputFormat
  | "text" => some .text
  | "json" => some .json
  | _ => none

structure CommandFailure where
  message : String
  exitCode : Nat
deriving DecidableEq, Repr

namespace CommandFailure

/-- A failure of the input, in the same words for both formats. -/
def ofInput (message : String) : CommandFailure := ⟨"Error: " ++ message, 1⟩

/-- A call that cannot be lowered. A builtin that is known but declined its operands has an exit
code of its own. -/
def ofLowering (format : OutputFormat) (e : LoweringError) : CommandFailure where
  exitCode :=
    match e with
    | .unknownBuiltin _ => 1
    | .unsupported .. => 2
  message :=
    match format with
    | .text => "code: " ++ e.code ++ "\nmessage: " ++ e.message ++ "\nhelp: " ++ e.help
    | .json =>
      (Document.object
        [("code", .text e.code), ("message", .text e.message), ("severity", .text "error")]).compact

/-- A violated requirement is a defect of the program and not of its input. -/
def ofViolation (v : Violation) : CommandFailure := ⟨v.message, 101⟩

end CommandFailure

/-- What the lowering of a call shows. -/
structure LoweringReport where
  key : Key
  kernel : Kernel
  result : ValueId
  /-- What the result evaluates to, if every scalar parameter is bound. -/
  value : Option (Except EvalError Value)

namespace LoweringReport

def text (r : LoweringReport) : String :=
  r.kernel.text ++ "result: " ++ r.result.text ++ " : " ++
    ((r.kernel.typeOf? r.result).map (·.text)).getD "?" ++ "\n" ++ valueLine
where
  valueLine : String :=
    match r.value with
    | some (.ok v) => "value: " ++ v.text ++ "\n"
    | some (.error e) => "value: <not evaluable: " ++ e.message ++ ">\n"
    | none => ""

def document (r : LoweringReport) : Document :=
  .object
    [("eval_error", .ofOption (r.value.bind fun | .error e => some e.message | .ok _ => none)),
     ("externals", .texts r.kernel.externalSymbols),
     ("instructions", .texts r.kernel.lines),
     ("key", .text r.key.text),
     ("result", .text r.result.text),
     ("type", .ofOption ((r.kernel.scalarType? r.result).map (·.name))),
     ("value", .ofOption (r.value.bind fun | .ok v => some v.text | .error _ => none))]

def render (r : LoweringReport) : OutputFormat → String
  | .text => r.text
  | .json => r.document.page

end LoweringReport

/-- The key of a call, a registered name or the spelling of a host callable. -/
def Key.ofText (text : String) (host : Bool) : Except CommandFailure Key :=
  if host then
    match HostCallable.ofSpelling? text with
    | some callable => .ok (.host callable)
    | none => .error (.ofInput ("`" ++ text ++ "` is not a known host callable"))
  else .ok (.name text)

def OperandSpec.parseArgument (text : String) : Except CommandFailure OperandSpec :=
  (OperandSpec.parse text).mapError fun e =>
    .ofInput ("invalid operand `" ++ text ++ "`: " ++ e.message)

/-- Lowers one call on the operands that texts describe. The key is looked at first, then the
operands from left to right, and only then the registry. -/
def lowerReport (config : RegistryConfig) (key : String) (operands : List String) (host : Bool)
    (format : OutputFormat) : Except CommandFailure LoweringReport := do
  let key ← Key.ofText key host
  let specs ← operands.mapM OperandSpec.parseArgument
  let call ← (LoweredCall.ofSpecs (.ofConfig config) key specs).mapError .ofViolation
  let result ← call.result.mapError (.ofLowering format)
  let value := if call.operands.fullyBound then call.eval? result else none
  return { key, kernel := call.kernel, result, value }

def lowerOutput (config : RegistryConfig) (key : String) (operands : List String) (host : Bool)
    (format : OutputFormat) : Except CommandFailure String :=
  (lowerReport config key operands host format).map (·.render format)

/-- A registered name with what it stands for. -/
structure BuiltinRow where
  name : String
  handler : String
  /-- The spellings of its host callables. -/
  host : List String

namespace BuiltinRow

/-- The rows of a registry, by name. -/
def ofRegistry (r : Registry) : List BuiltinRow :=
  r.names.filterMap fun name =>
    (r.lookupName? name).map fun handler =>
      ⟨name, handler.text, (r.aliasesOf name).map (·.spelling)⟩

/-- A row as a line, with names filled up to a width. -/
def line (width : Nat) (row : BuiltinRow) : String :=
  row.name ++ String.ofList (List.replicate (width - row.name.length) ' ') ++ "  " ++
    row.handler ++
    (if row.host.isEmpty then "" else "  (host: " ++ String.intercalate ", " row.host ++ ")")

def document (row : BuiltinRow) : Document :=
  .object [("handler", .text row.handler), ("host", .texts row.host), ("key", .text row.name)]

end BuiltinRow

/-- Every registered name with its handler and its host callables. -/
def builtinsOutput (config : RegistryConfig) (format : OutputFormat) : String :=
  let rows := BuiltinRow.ofRegistry (.ofConfig config)
  match format with
  | .text =>
    let width := rows.foldl (fun w row => max w row.name.length) 0
    String.join (rows.map fun row => row.line width ++ "\n")
  | .json => (Document.array (rows.map (·.document))).page

/-- The math library symbol of an operation on a type. -/
def symbolOutput (name type : String) (realMark : Bool) : Except CommandFailure String := do
  match NumType.ofName? type with
  | none => throw (.ofInput ("unknown numeric type `" ++ type ++ "`"))
  | some t =>
    match mathSymbol? name t realMark with
    | some symbol => return symbol ++ "\n"
    | none =>
      throw (.ofInput ("libm has no `" ++ name ++ "` variant for " ++ t.name ++
        "; only floating and complex types map to symbols"))

end ScalarLowering
