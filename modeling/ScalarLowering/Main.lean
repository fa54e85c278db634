import ScalarLowering.CommandLine.Arguments

set_option autoImplicit false

/- The program: it reads its arguments, prints what the command prints, and ends
with the command's exit code. -/

open ScalarLowering

def main (args : List String) : IO UInt32 := do
  match Invocation.read args with
  | .error e =>
    if e.exitCode = 0 then IO.print e.text else IO.eprint e.text
    return e.exitCode.toUInt32
  | .ok invocation =>
    match invocation.output with
    | .ok text =>
      IO.print text
      return 0
    | .error failure =>
      IO.eprintln failure.message
      return failure.exitCode.toUInt32
