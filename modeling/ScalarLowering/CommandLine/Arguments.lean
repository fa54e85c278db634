import ScalarLowering.CommandLine.Commands

set_option autoImplicit false

/- Reading the arguments of the program. Switches that configure the registry may
stand before and behind the command; a command has switches, an output format and
positional words of its own. From the first operand of `lower` on everything is
an operand.

The rules are those of clap for global switches and for operands that may begin with
a hyphen. A switch is given once at a level, and takes no value. Behind the key an
unknown name is an operand already, before it an error. A `--` before the first
operand ends the switches and is dropped, a later one is an operand. A format is
looked at when the next argument has been read. Each usage error has the kind that
clap gives it; asking for help or the version exits with 0, every other one with 2.
The texts that clap composes for them are left out, and a short help stands for them. -/

namespace ScalarLowering

/-- Why arguments make no command; asking for help or the version is such a reason. -/
inductive UsageError where
  | displayHelp
  | displayVersion
  | displayHelpOnMissingArgumentOrSubcommand
  | missingSubcommand
  | invalidSubcommand
  | missingRequiredArgument
  | unknownArgument
  | argumentConflict
  | tooManyValues
  | invalidValue
deriving DecidableEq, Repr

namespace UsageError

def kind : UsageError → String
  | .displayHelp => "DisplayHelp"
  | .displayVersion => "DisplayVersion"
  | .displayHelpOnMissingArgumentOrSubcommand => "DisplayHelpOnMissingArgumentOrSubcommand"
  | .missingSubcommand => "MissingSubcommand"
  | .invalidSubcommand => "InvalidSubcommand"
  | .missingRequiredArgument => "MissingRequiredArgument"
  | .unknownArgument => "UnknownArgument"
  | .argumentConflict => "ArgumentConflict"
  | .tooManyValues => "TooManyValues"
  | .invalidValue => "InvalidValue"

def exitCode : UsageError → Nat
  | .displayHelp | .displayVersion => 0
  | _ => 2

def help : String :=
  "Lower numeric builtins to typed IR\n\n" ++
    "Usage: numjit [SWITCH]... lower [--host] [--format FORMAT] KEY [OPERAND]...\n" ++
    "       numjit [SWITCH]... builtins [--format FORMAT]\n" ++
    "       numjit [SWITCH]... symbol [--append-f] NAME TYPE\n\n" ++
    "Switches: --no-host-aliases, --no-number-casts, --no-math, --no-helpers\n" ++
    "Formats: text, json\n"

/-- What is printed in place of a command's output. -/
def text : UsageError → String
  | .displayHelp | .displayHelpOnMissingArgumentOrSubcommand => help
  | .displayVersion => "numjit 0.1.0\n"
  | e => "error: " ++ e.kind ++ "\n\n" ++ help

end UsageError

inductive Switch where
  | noHostAliases
  | noNumberCasts
  | noMath
  | noHelpers
  | host
  | appendF
deriving DecidableEq, Repr

/-- The parts of the program that read arguments: the program itself and its commands. -/
inductive Level where
  | program
  | lower
  | builtins
  | symbol
deriving DecidableEq, Repr

namespace Level

def ofCommand? : String → Option Level
  | "lower" => some .lower
  | "builtins" => some .builtins
  | "symbol" => some .symbol
  | _ => none

/-- The switch that a long name stands for at a level. -/
def switch? (level : Level) : String → Option Switch
  | "no-host-aliases" => some .noHostAliases
  | "no-number-casts" => some .noNumberCasts
  | "no-math" => some .noMath
  | "no-helpers" => some .noHelpers
  | "host" => if level = .lower then some .host else none
  | "append-f" => if level = .symbol then some .appendF else none
  | _ => none

def hasFormat (level : Level) : Bool := level = .lower || level = .builtins

/-- How many words a level needs. -/
def wordCount : Level → Nat
  | .program | .builtins => 0
  | .lower => 1
  | .symbol => 2

/-- Whether any number of operands follows the words. -/
def takesOperands (level : Level) : Bool := level = .lower

/-- What a long name asks to be displayed. -/
def display? (level : Level) : String → Option UsageError
  | "help" => some .displayHelp
  | "version" => if level = .program then some .displayVersion else none
  | _ => none

/-- What a short name asks to be displayed; there are no other short names. -/
def displayShort? (level : Level) : Char → Option UsageError
  | 'h' => some .displayHelp
  | 'V' => if level = .program then some .displayVersion else none
  | _ => none

end Level

/-- The value of a format option that has been read but not yet looked at. -/
inductive PendingFormat where
  | none
  /-- The next argument is the value, if there is one. -/
  | awaited
  | given (value : String)
deriving DecidableEq, Repr

/-- What has been read at one level. -/
structure ReadArguments where
  switches : List Switch := []
  format : Option OutputFormat := none
  pending : PendingFormat := .none
  /-- The words and operands read so far, last one first. -/
  words : List String := []
  /-- Whether `--` has ended the switches. -/
  ended : Bool := false
deriving Repr

namespace ReadArguments

/-- Takes up the pending format. It must be given only once, and have one of the two values. -/
def settle (s : ReadArguments) : Except UsageError ReadArguments :=
  match s.pending with
  | .none => .ok s
  | .awaited => .error .invalidValue
  | .given value =>
    if s.format.isSome then .error .argumentConflict
    else
      match OutputFormat.ofName? value with
      | some format => .ok { s with format := some format, pending := .none }
      | none => .error .invalidValue

def addSwitch (s : ReadArguments) (switch : Switch) : Except UsageError ReadArguments := do
  let s ← s.settle
  if switch ∈ s.switches then throw .argumentConflict
  return { s with switches := switch :: s.switches }

/-- Adds a word or an operand, if the level takes another one. -/
def addWord (level : Level) (s : ReadArguments) (word : String) :
    Except UsageError ReadArguments := do
  if s.words.length < level.wordCount || level.takesOperands then
    let s ← s.settle
    return { s with words := word :: s.words }
  else throw (if level = .program then .invalidSubcommand else .unknownArgument)

/-- Whether the words are complete, so that the next one is an operand. -/
def atOperands (level : Level) (s : ReadArguments) : Bool :=
  level.takesOperands && level.wordCount ≤ s.words.length

def inOperands (level : Level) (s : ReadArguments) : Bool :=
  level.takesOperands && level.wordCount < s.words.length

/-- An argument that is neither a switch nor a long or short name: the value of a format option
that waits for one, or a word. -/
def addPlain (level : Level) (s : ReadArguments) (arg : String) :
    Except UsageError ReadArguments :=
  if s.pending = .awaited && !s.ended then .ok { s with pending := .given arg }
  else s.addWord level arg

/-- An argument of the form `--name` or `--name=value`. -/
def addLong (level : Level) (s : ReadArguments) (arg name : String) (value : Option String) :
    Except UsageError ReadArguments := do
  match level.switch? name, level.display? name with
  | some switch, _ => if value.isSome then throw .tooManyValues else s.addSwitch switch
  | none, some shown =>
    if value.isSome then throw .tooManyValues
    let _ ← s.settle
    throw shown
  | none, none =>
    if name = "format" && level.hasFormat then
      let s ← s.settle
      match value with
      | some value => settle { s with pending := .given value }
      | none => return { s with pending := .awaited }
    else if s.atOperands level then s.addPlain level arg
    else throw .unknownArgument

/-- An argument of the form `-names`. -/
def addShort (level : Level) (s : ReadArguments) (arg : String) (names : List Char) :
    Except UsageError ReadArguments := do
  if s.atOperands level && names.any fun c => (level.displayShort? c).isNone then
    s.addPlain level arg
  else
    match names.head?.bind level.displayShort? with
    | some shown =>
      let _ ← s.settle
      throw shown
    | none => throw .unknownArgument

/-- One argument. The first operand ends the switches, and so does `--` before it. -/
def add (level : Level) (s : ReadArguments) (arg : String) : Except UsageError ReadArguments :=
  if s.ended || s.inOperands level then s.addWord level arg
  else
    match arg.toList with
    | ['-', '-'] => .ok { s with ended := true }
    | '-' :: '-' :: rest =>
      let name := String.ofList (rest.takeWhile (· ≠ '='))
      let value :=
        match rest.dropWhile (· ≠ '=') with
        | [] => none
        | _ :: value => some (String.ofList value)
      s.addLong level arg name value
    | '-' :: c :: rest => s.addShort level arg (c :: rest)
    | _ => s.addPlain level arg

/-- All arguments of a level. -/
def addAll (level : Level) (args : List String) : Except UsageError ReadArguments := do
  let s ← args.foldlM (add level) {}
  s.settle

end ReadArguments

inductive Command where
  | lower (key : String) (operands : List String) (host : Bool) (format : OutputFormat)
  | builtins (format : OutputFormat)
  | symbol (name type : String) (realMark : Bool)
deriving DecidableEq, Repr

/-- A command and the registry it works on. -/
structure Invocation where
  config : RegistryConfig
  command : Command
deriving DecidableEq, Repr

namespace Invocation

/-- The registry left by the switches of both levels. -/
def configOf (switches : List Switch) : RegistryConfig where
  hostAliases := .noHostAliases ∉ switches
  numberCasts := .noNumberCasts ∉ switches
  mathFunctions := .noMath ∉ switches
  helperFunctions := .noHelpers ∉ switches

def commandOf (level : Level) (s : ReadArguments) : Except UsageError Command :=
  let format := s.format.getD .text
  match level, s.words.reverse with
  | .lower, key :: operands => .ok (.lower key operands (.host ∈ s.switches) format)
  | .builtins, _ => .ok (.builtins format)
  | .symbol, [name, type] => .ok (.symbol name type (.appendF ∈ s.switches))
  | _, _ => .error .missingRequiredArgument

/-- The arguments behind a command. -/
def ofCommand (level : Level) (outer : List Switch) (args : List String) :
    Except UsageError Invocation := do
  let s ← ReadArguments.addAll level args
  return ⟨configOf (outer ++ s.switches), ← commandOf level s⟩

/-- Help may be asked for about one command; no command has commands of its own. -/
def helpAbout : List String → UsageError
  | [] => .displayHelp
  | [command] =>
    if command = "help" || (Level.ofCommand? command).isSome then .displayHelp
    else .invalidSubcommand
  | _ => .invalidSubcommand

/-- The arguments of the program up to the command, and the command. -/
def readFrom (s : ReadArguments) : List String → Except UsageError Invocation
  | [] =>
    .error (if s.switches.isEmpty then .displayHelpOnMissingArgumentOrSubcommand
      else .missingSubcommand)
  | arg :: args =>
    if s.ended then .error (misplaced arg)
    else
      match Level.ofCommand? arg with
      | some level => ofCommand level s.switches args
      | none =>
        if arg = "help" then .error (helpAbout args)
        else do readFrom (← s.add .program arg) args
where
  /-- Behind `--` a command is no command any more. -/
  misplaced (arg : String) : UsageError :=
    if arg = "help" || (Level.ofCommand? arg).isSome then .unknownArgument else .invalidSubcommand

def read (args : List String) : Except UsageError Invocation := readFrom {} args

/-- The text that a command prints. -/
def output (i : Invocation) : Except CommandFailure String :=
  match i.command with
  | .lower key operands host format => lowerOutput i.config key operands host format
  | .builtins format => .ok (builtinsOutput i.config format)
  | .symbol name type realMark => symbolOutput name type realMark

end Invocation

end ScalarLowering
