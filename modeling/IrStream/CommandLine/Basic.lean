import IrStream.CommandLine.Arguments
import IrStream.Document.Loading
import IrStream.Report.Statistics

/-!
# Running commands

A command reads the text of a document, encodes the program it describes, and gives the stream or
a report on it.  How files are read and written is a parameter, `FileAccess`; everything else is
decided here.
-/

set_option autoImplicit false

namespace IrStream

/-- How files are read and written.  A failure is the reason, as the operating system words it. -/
structure FileAccess (m : Type → Type) where
  /-- The text of a file. -/
  read : (path : String) → m (Except String String)
  write : (path : String) → List UInt8 → m (Except String Unit)

/-- What stops a command. -/
inductive CommandError where
  | read (path reason : String)
  | write (path reason : String)
  | program (error : ProgramError)
  | encode (error : EncodeError)
  deriving DecidableEq

def CommandError.message : CommandError → String
  | read path reason => "failed to read `" ++ path ++ "`: " ++ reason
  | write path reason => "failed to write `" ++ path ++ "`: " ++ reason
  | program error => "invalid program: " ++ error.message
  | encode error => "encoding failed: " ++ error.message

/-- What a command puts out. -/
inductive Output where
  | bytes (content : List UInt8)
  | text (content : String)
  deriving DecidableEq

/-- The bytes of what is put out. -/
def Output.toBytes : Output → List UInt8
  | bytes content => content
  | text content => textBytes content

/-- The outcome of a command, and what was logged up to it. -/
structure Outcome where
  log : List LogEvent
  result : Except CommandError Output

namespace Command

/-- Path of the document. -/
def program : Command → String
  | encode program .. => program
  | stats program _ => program

/-- Width of size fields. -/
def word : Command → WordSize
  | encode _ word .. => word
  | stats _ word => word

/-- Where the output goes, unless it is standard output. -/
def output? : Command → Option String
  | encode _ _ output _ => output
  | stats .. => none

/-- What a command puts out about an encoded program. -/
def present : Command → EncodedModule → Output
  | encode _ _ _ .raw, encoded => .bytes encoded.bytes
  | encode _ _ _ .assembly, encoded => .text encoded.assembly
  | stats .., encoded => .text encoded.report

/-- The outcome for the text of a document, before anything is written. -/
def outcome (command : Command) (text : String) : Outcome :=
  match Program.ofText text with
  | .error error => ⟨[], .error (.program error)⟩
  | .ok program =>
    let (result, log) := program.encodeLogged command.word
    ⟨log, (result.mapError .encode).map command.present⟩

/-- Run a command. -/
def run {m : Type → Type} [Monad m] (files : FileAccess m) (command : Command) : m Outcome := do
  match ← files.read command.program with
  | .error reason => return ⟨[], .error (.read command.program reason)⟩
  | .ok text =>
    let outcome := command.outcome text
    match outcome.result, command.output? with
    | .ok output, some path =>
      match ← files.write path output.toBytes with
      | .error reason => return { outcome with result := .error (.write path reason) }
      | .ok () => return outcome
    | _, _ => return outcome

end Command

end IrStream
