import IrStream.CommandLine.Basic

/-!
# The program

Runs the command that the arguments name on real files.  Results go to standard output, complaints
and the log to standard error.
-/

set_option autoImplicit false

namespace IrStream

/-- Access to the files of the machine.  The path `-` is standard input. -/
def machineFiles : FileAccess IO where
  read path := do
    try
      let bytes ←
        if path = "-" then (← IO.getStdin).readToEnd.map String.toUTF8
        else IO.FS.readBinFile path
      match String.fromUTF8? bytes with
      | some text => return .ok text
      | none => return .error "stream did not contain valid UTF-8"
    catch error => return .error (toString error)
  write path bytes := do
    try
      IO.FS.writeBinFile path ⟨bytes.toArray⟩
      return .ok ()
    catch error => return .error (toString error)

/-- Whether an event is to be shown. -/
def isShown (verbosity : Nat) (event : LogEvent) : Bool :=
  match event.level with
  | .debug => 1 ≤ verbosity
  | .trace => 2 ≤ verbosity

/-- An event as a line of the log. -/
def logLine (event : LogEvent) : String :=
  event.message ++ String.join (event.fields.map fun field =>
    " " ++ field.1 ++ "=" ++ match field.2 with
      | .text text => text
      | .count count => toString count)

def usage : String :=
  unlines [
    "usage: encode PROGRAM [-o FILE] [--emit raw|asm] [--word-size 4|8] [-v]",
    "       stats PROGRAM [--word-size 4|8] [-v]"]

end IrStream

open IrStream in
def main (arguments : List String) : IO UInt32 := do
  match Invocation.ofArguments arguments with
  | .error error =>
    IO.eprint usage
    return UInt32.ofNat error.exitCode
  | .ok invocation =>
    let outcome ← invocation.command.run machineFiles
    for event in outcome.log do
      if isShown invocation.verbosity event then
        IO.eprintln (logLine event)
    match outcome.result with
    | .error error =>
      IO.eprintln ("error: " ++ error.message)
      return 1
    | .ok output =>
      if invocation.command.output?.isNone then
        let stdout ← IO.getStdout
        stdout.write ⟨output.toBytes.toArray⟩
        stdout.flush
      return 0
