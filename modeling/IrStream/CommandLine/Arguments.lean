import IrStream.Text.Numeral
import IrStream.Wire.WordSize

/-!
# Program arguments

There are two commands, `encode PROGRAM` and `stats PROGRAM`, and `help`.  Both commands take
`--word-size N`, and `encode` also `-o FILE`, `--output FILE` and `--emit raw` or `--emit asm`.
`-v`, `--verbose`, `-h` and `--help` may stand before or behind the command.

Arguments are taken from left to right.

* A long option has its value behind `=` or in the next argument; a short one right behind its
  letter, with or without `=`, or in the next argument.  Short options without values may share a
  dash.
* Behind `--` there are no more options.
* A value in an argument of its own is looked at when the next option or operand comes up, or at
  the end.  If what comes up is unknown, that is what is reported.
* An option is given at most once, except that `-v` counts.
-/

set_option autoImplicit false

namespace IrStream

/-- What `encode` writes. -/
inductive EmitForm where
  /-- The bytes of the stream. -/
  | raw
  /-- Assembler source that embeds the stream. -/
  | assembly
  deriving DecidableEq

/-- What to do. -/
inductive Command where
  | encode (program : String) (word : WordSize) (output : Option String) (emit : EmitForm)
  | stats (program : String) (word : WordSize)
  deriving DecidableEq

/-- What to do, and how much to tell about it. -/
structure Invocation where
  verbosity : Nat
  command : Command
  deriving DecidableEq

/-- Why arguments name no command to run. -/
inductive UsageError where
  /-- Help was asked for. -/
  | help
  /-- There are no arguments, which asks for help too. -/
  | nothingGiven
  | missingCommand
  | unknownCommand
  | missingOperand
  | unknownArgument
  /-- A value is missing, or is none of those allowed. -/
  | invalidValue
  /-- A value was looked at and refused. -/
  | rejectedValue
  | givenTwice
  /-- An option without a value has one. -/
  | unexpectedValue
  deriving DecidableEq

/-- Asking for help is no failure. -/
def UsageError.exitCode : UsageError → Nat
  | help => 0
  | _ => 2

namespace Arguments

/-! ## Options -/

/-- Places for values. -/
inductive ValueKey where
  | program
  | output
  | emit
  | wordSize
  deriving DecidableEq

/-- What an option does. -/
inductive OptionKind where
  | verbose
  | help
  | value (key : ValueKey)
  deriving DecidableEq

/-- An option and its names. -/
structure OptionName where
  kind : OptionKind
  short : Option Char
  long : String

/-- Options that may stand anywhere. -/
def commonOptions : List OptionName :=
  [⟨.verbose, some 'v', "verbose"⟩, ⟨.help, some 'h', "help"⟩]

/-- Options of `stats`. -/
def statsOptions : List OptionName :=
  ⟨.value .wordSize, none, "word-size"⟩ :: commonOptions

/-- Options of `encode`. -/
def encodeOptions : List OptionName :=
  ⟨.value .output, some 'o', "output"⟩ :: ⟨.value .emit, none, "emit"⟩ :: statsOptions

def findShort? (options : List OptionName) (letter : Char) : Option OptionKind :=
  (options.find? (·.short == some letter)).map (·.kind)

def findLong? (options : List OptionName) (name : String) : Option OptionKind :=
  (options.find? (·.long == name)).map (·.kind)

/-! ## Values -/

/-- Values given so far. -/
structure Values where
  program : Option String := none
  output : Option String := none
  emit : Option EmitForm := none
  wordSize : Option WordSize := none
  /-- How often `-v` was given. -/
  verbosity : Nat := 0

/-- Whether there is a value in a place. -/
def Values.has (values : Values) : ValueKey → Bool
  | .program => values.program.isSome
  | .output => values.output.isSome
  | .emit => values.emit.isSome
  | .wordSize => values.wordSize.isSome

/-- A path has at least a character. -/
def readPath (text : String) : Except UsageError String :=
  if text.isEmpty then .error .invalidValue else .ok text

/-- The form of that name. -/
def readEmitForm : String → Except UsageError EmitForm
  | "raw" => .ok .raw
  | "asm" => .ok .assembly
  | _ => .error .invalidValue

/-- A word size is a number of bytes in 32 bits. -/
def readWordSize (text : String) : Except UsageError WordSize :=
  match (unsigned? 10 UInt32.size text.toList).bind WordSize.ofBytes? with
  | some word => .ok word
  | none => .error .rejectedValue

/-- Put a value in its place. -/
def Values.put (values : Values) (key : ValueKey) (text : String) : Except UsageError Values := do
  if values.has key then
    throw .givenTwice
  match key with
  | .program => return { values with program := some (← readPath text) }
  | .output => return { values with output := some (← readPath text) }
  | .emit => return { values with emit := some (← readEmitForm text) }
  | .wordSize => return { values with wordSize := some (← readWordSize text) }

/-! ## Progress -/

/-- A value that has not been looked at. -/
structure Pending where
  key : ValueKey
  /-- The text, unless it is still to come in the next argument. -/
  text : Option String

/-- What the arguments so far have said. -/
structure Progress where
  values : Values := {}
  pending : Option Pending := none
  /-- Whether the operand was given. -/
  hasOperand : Bool := false

namespace Progress

/-- Look at the value that is pending. -/
def settle (progress : Progress) : Except UsageError Progress :=
  match progress.pending with
  | none => .ok progress
  | some ⟨_, none⟩ => .error .invalidValue
  | some ⟨key, some text⟩ => do
    return { progress with values := ← progress.values.put key text, pending := none }

/-- Whether the next argument is a value, unless it is an option. -/
def expectsValue (progress : Progress) : Bool :=
  match progress.pending with
  | some ⟨_, none⟩ => true
  | _ => false

/-- An option that has no value of its own. -/
def switch (progress : Progress) (kind : OptionKind) : Except UsageError Progress := do
  let progress ← progress.settle
  match kind with
  | .verbose =>
    return { progress with
      values := { progress.values with verbosity := progress.values.verbosity + 1 } }
  | .help => throw .help
  | .value key => return { progress with pending := some ⟨key, none⟩ }

/-- An option with its value behind it in the same argument. -/
def attached (progress : Progress) (key : ValueKey) (text : String) :
    Except UsageError Progress := do
  let progress ← progress.settle
  return { progress with values := ← progress.values.put key text }

/-- The text behind the letter of a short option. -/
def attachedText : List Char → String
  | '=' :: text => String.ofList text
  | text => String.ofList text

/-- Short options behind a dash. -/
def shorts (options : List OptionName) (progress : Progress) :
    List Char → Except UsageError Progress
  | [] => .ok progress
  | letter :: rest => do
    match findShort? options letter with
    | none => throw .unknownArgument
    | some (.value key) =>
      if rest.isEmpty then
        progress.switch (.value key)
      else
        progress.attached key (attachedText rest)
    | some kind => shorts options (← progress.switch kind) rest

/-- A long option behind two dashes. -/
def long (options : List OptionName) (progress : Progress) (text : List Char) :
    Except UsageError Progress :=
  let name := String.ofList (text.takeWhile (· != '='))
  match findLong? options name, text.dropWhile (· != '=') with
  | none, _ => .error .unknownArgument
  | some kind, [] => progress.switch kind
  | some (.value key), _ :: value => progress.attached key (String.ofList value)
  | some _, _ :: _ => .error .unexpectedValue

/-- An argument that is no option. -/
def operand (progress : Progress) (text : String) : Except UsageError Progress := do
  if progress.hasOperand then
    throw .unknownArgument
  let progress ← progress.settle
  return { progress with pending := some ⟨.program, some text⟩, hasOperand := true }

/-- An argument that is neither an option nor behind `--`. -/
def plain (progress : Progress) (text : String) : Except UsageError Progress :=
  match progress.pending with
  | some ⟨key, none⟩ => .ok { progress with pending := some ⟨key, some text⟩ }
  | _ => progress.operand text

end Progress

/-- What an argument looks like. -/
inductive Form where
  /-- `--` -/
  | separator
  /-- What stands behind `--`. -/
  | long (text : List Char)
  /-- What stands behind `-`. -/
  | shorts (letters : List Char)
  | plain

/-- What an argument looks like.  A dash alone is no option. -/
def formOf (argument : String) : Form :=
  match argument.toList with
  | ['-', '-'] => .separator
  | '-' :: '-' :: text => .long text
  | ['-'] => .plain
  | '-' :: letters => .shorts letters
  | _ => .plain

/-! ## Commands -/

/-- Arguments of a command. -/
def commandValues (options : List OptionName) :
    (progress : Progress) → List String → Except UsageError Values
  | progress, [] => return (← progress.settle).values
  | progress, argument :: rest => do
    match formOf argument with
    | .separator => return (← (← rest.foldlM Progress.operand progress).settle).values
    | .long text => commandValues options (← progress.long options text) rest
    | .shorts letters => commandValues options (← progress.shorts options letters) rest
    | .plain => commandValues options (← progress.plain argument) rest

/-- The operand, which has to be given. -/
def requireProgram (values : Values) : Except UsageError String :=
  match values.program with
  | some program => .ok program
  | none => .error .missingOperand

/-- Whether there is a command of that name. -/
def isCommand (name : String) : Bool :=
  name == "encode" || name == "stats" || name == "help"

/-- Help on the command that the arguments name, if there is one. -/
def helpOn : List String → UsageError
  | [] => .help
  | [name] => if isCommand name then .help else .unknownCommand
  | _ => .unknownCommand

/-- The verbosity asked for: behind the command if it is given there, else before it. -/
def verbosity (before : Progress) (values : Values) : Nat :=
  min 255 (if values.verbosity = 0 then before.values.verbosity else values.verbosity)

/-- There is no command. -/
def noCommand (before : Progress) : UsageError :=
  if before.values.verbosity = 0 then .nothingGiven else .missingCommand

/-- What the arguments ask for, where `before` is what stands before the command. -/
def invocationFrom : (before : Progress) → List String → Except UsageError Invocation
  | before, [] => throw (noCommand before)
  | before, "encode" :: rest => do
    let values ← commandValues encodeOptions {} rest
    let program ← requireProgram values
    return ⟨verbosity before values,
      .encode program (values.wordSize.getD .eight) values.output (values.emit.getD .raw)⟩
  | before, "stats" :: rest => do
    let values ← commandValues statsOptions {} rest
    let program ← requireProgram values
    return ⟨verbosity before values, .stats program (values.wordSize.getD .eight)⟩
  | _, "help" :: rest => throw (helpOn rest)
  | before, argument :: rest => do
    match formOf argument with
    | .separator =>
      match rest with
      | [] => throw (noCommand before)
      | name :: _ => throw (if isCommand name then .unknownArgument else .unknownCommand)
    | .long text => invocationFrom (← before.long commonOptions text) rest
    | .shorts letters => invocationFrom (← before.shorts commonOptions letters) rest
    | .plain => throw .unknownCommand

end Arguments

/-- What the arguments behind the program name ask for. -/
def Invocation.ofArguments (arguments : List String) : Except UsageError Invocation :=
  Arguments.invocationFrom {} arguments

end IrStream
