import IrStream.Types.Shape

/-!
# What can be wrong with a program

Building a program fails for the reasons listed in `ProgramError`, reading one from a document
also when the document is not the JSON it should be.  `ProgramError.message` words each reason.
-/

set_option autoImplicit false

namespace IrStream

/-- What is wrong with the text of a document. -/
inductive JsonFault where
  /-- The text ends too early. -/
  | endOfText
  /-- The text is not JSON. -/
  | malformed
  /-- The text so far is JSON, but not of the shape a document has. -/
  | wrongShape
  deriving DecidableEq

/-- Why a program cannot be built. -/
inductive ProgramError where
  | unknownType (text : String)
  | unknownValue (function name : String)
  | unknownBlock (function label : String)
  | unknownSymbol (name : String)
  | duplicateName (name : String)
  | malformedOperand (text : String)
  | malformedConstant (text : String)
  | integerTooWide (bits : UInt32)
  | notAnIntegerType (text : String)
  | notAFunctionType (text : String)
  | notANamedStruct (id : TypeId)
  | recursiveStruct (name : String)
  /-- A struct has a field of type void. -/
  | voidField (name : String)
  /-- A struct has a field of a function type. -/
  | functionField (name : String) (params : List TypeId) (ret : TypeId) (vararg : Bool)
  | namedVoidValue (function name : String)
  | missingAttribute (op key : String)
  | unknownPredicate (name : String)
  | malformedDocument (fault : JsonFault)
  | dangling (handle : Dangling)
  deriving DecidableEq

/-- Texts with a comma and a space between neighbours. -/
def commaSeparated : List String → String
  | [] => ""
  | [text] => text
  | text :: rest => text ++ ", " ++ commaSeparated rest

/-- A text between back quotes, as messages show what they quote. -/
def backquoted (text : String) : String :=
  "`" ++ text ++ "`"

/-- A type handle as messages show it. -/
def TypeId.label (id : TypeId) : String :=
  "TypeId(" ++ toString id.index ++ ")"

def JsonFault.message : JsonFault → String
  | endOfText => "the text ends too early"
  | malformed => "the text is not JSON"
  | wrongShape => "a value does not have the shape expected in its place"

def Dangling.message : Dangling → String
  | type id => "no type " ++ toString id.index
  | constant id => "no constant " ++ toString id.index
  | global id => "no global " ++ toString id.index
  | function id => "no function " ++ toString id.index
  | block id => "no block " ++ toString id.index
  | inst id => "no instruction " ++ toString id.index
  | arg id => "no argument " ++ toString id.index

namespace ProgramError

/-- Message of a field that cannot be stored, whose type is written `type`. -/
private def fieldMessage (name type : String) : String :=
  "type " ++ backquoted type ++ " cannot be a field of struct " ++ backquoted name

def message : ProgramError → String
  | unknownType text => "unknown type " ++ backquoted text
  | unknownValue function name =>
    "unknown value " ++ backquoted name ++ " in function " ++ backquoted function
  | unknownBlock function label =>
    "unknown block " ++ backquoted label ++ " in function " ++ backquoted function
  | unknownSymbol name => "unknown global or function " ++ backquoted ("@" ++ name)
  | duplicateName name => "duplicate name " ++ backquoted name
  | malformedOperand text => "malformed operand " ++ backquoted text
  | malformedConstant text => "malformed constant " ++ backquoted text
  | integerTooWide bits =>
    "integer constants wider than 128 bits are not supported (got i" ++ toString bits.toNat ++ ")"
  | notAnIntegerType text => "expected an integer type, got " ++ backquoted text
  | notAFunctionType text => "expected a function type, got " ++ backquoted text
  | notANamedStruct id => backquoted id.label ++ " is not a named struct"
  | recursiveStruct name => "struct " ++ backquoted name ++ " contains itself by value"
  | voidField name => fieldMessage name "Void"
  | functionField name params ret vararg =>
    fieldMessage name <|
      "Func \x7b params: [" ++ commaSeparated (params.map (·.label)) ++ "], ret: " ++ ret.label
        ++ ", vararg: " ++ (if vararg then "true" else "false") ++ " \x7d"
  | namedVoidValue function name =>
    backquoted ("%" ++ name) ++ " in function " ++ backquoted function
      ++ " names an instruction that produces no value"
  | missingAttribute op key =>
    backquoted op ++ " requires the " ++ backquoted key ++ " attribute"
  | unknownPredicate name => "unknown comparison predicate " ++ backquoted name
  | malformedDocument fault => "JSON parse error: " ++ fault.message
  | dangling handle => handle.message

end ProgramError

instance : MonadLift (Except Dangling) (Except ProgramError) where
  monadLift x := x.mapError .dangling

end IrStream
