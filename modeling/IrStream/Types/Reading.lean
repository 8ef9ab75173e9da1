import IrStream.Text.Blank
import IrStream.Text.Numeral
import IrStream.Types.Arena

/-!
# Reading types from text

The grammar is the one that types are written in (`IrStream.Types.Text`), with blanks allowed
between any two words:

* a *base* is `void`, `ptr`, `ptr addrspace(N)`, the name of a floating-point format, `iN`, a
  struct `{ … }` or `<{ … }>`, an array `[N x T]`, or `%` and the name of a declared struct;
* a type is a base followed by any number of parameter lists `( … )`, each of which makes a
  function type that returns what stands before it;
* a list may contain `...`, which counts as the vararg mark of a parameter list and for nothing in
  a struct.

Each type is interned as soon as it is complete.  Those that were complete before the text turns
out to be no type stay in the arena.

What is read does not depend on how the arena finds a type again.  `TypeArena` is all that reading
asks of it, and `Types` is the arena that programs have.
-/

set_option autoImplicit false

namespace IrStream

/-- An arena that types can be read into. -/
class TypeArena (Arena : Type) where
  /-- The handle of a shape, and the arena that has it. -/
  intern : Arena → TypeShape → TypeId × Arena
  /-- The struct of that name, if it is declared. -/
  named? : Arena → String → Option TypeId

instance : TypeArena Types where
  intern := Types.intern
  named? := Types.named?

/-- A step of reading: it takes text from the front of what is left and may intern types.  When it
fails, the arena is what the steps before the failure made of it. -/
def TypeReader (Arena α : Type) : Type :=
  Arena → List Char → Arena × Option (α × List Char)

namespace TypeReader

instance {Arena : Type} : Monad (TypeReader Arena) where
  pure value := fun types text => (types, some (value, text))
  bind step next := fun types text =>
    match step types text with
    | (types, none) => (types, none)
    | (types, some (value, rest)) => next value types rest

variable {Arena : Type}

/-- What is left is not what was expected. -/
def fail {α : Type} : TypeReader Arena α :=
  fun types _ => (types, none)

/-- Go on only with a value. -/
def require {α : Type} : Option α → TypeReader Arena α
  | some value => pure value
  | none => fail

/-! ## Words -/

/-- Whether a character belongs to words. -/
def isWordChar (c : Char) : Bool :=
  c.isAlphanum || c == '_' || c == '.'

/-- The rest of `text` behind `token`, if it begins with it. -/
def stripPrefix? : (token text : List Char) → Option (List Char)
  | [], text => some text
  | _ :: _, [] => none
  | expected :: token, c :: text => if expected = c then stripPrefix? token text else none

/-- Take `token` if it stands next. -/
def take? (token : String) : TypeReader Arena Bool := fun types text =>
  match stripPrefix? token.toList (trimStart text) with
  | some rest => (types, some (true, rest))
  | none => (types, some (false, text))

/-- Take `token`, which has to stand next. -/
def expect (token : String) : TypeReader Arena Unit := do
  if !(← take? token) then fail

/-- Take the word that stands next, which may be empty. -/
def word : TypeReader Arena (List Char) := fun types text =>
  let text := trimStart text
  (types, some (text.takeWhile isWordChar, text.dropWhile isWordChar))

/-- Take a word that is a decimal numeral below `limit`. -/
def number (limit : Nat) : TypeReader Arena Nat := do
  require (bounded? 10 limit (← word))

/-! ## Lists -/

/-- Items of a list up to `close`, behind `items`; `vararg` tells whether `...` was among them.
Every turn takes at least a comma, so there are no more turns than characters. -/
def listItems (item : TypeReader Arena TypeId) (close : String) :
    (turns : Nat) → (items : List TypeId) → (vararg : Bool) → TypeReader Arena (List TypeId × Bool)
  | 0, _, _ => fail
  | turns + 1, items, vararg => do
    let (items, vararg) ←
      if ← take? "..." then
        pure (items, true)
      else
        pure (items ++ [← item], vararg)
    if ← take? close then
      return (items, vararg)
    expect ","
    listItems item close turns items vararg

/-- A list up to `close`, which may be empty. -/
def list (item : TypeReader Arena TypeId) (close : String) :
    TypeReader Arena (List TypeId × Bool) := do
  if ← take? close then
    return ([], false)
  fun types text => listItems item close (text.length + 1) [] false types text

/-! ## Types -/

variable [TypeArena Arena]

/-- Have the arena answer the handle of a shape. -/
def interning (shape : TypeShape) : TypeReader Arena TypeId := fun types text =>
  let (id, types) := TypeArena.intern types shape
  (types, some (id, text))

/-- Have the arena answer the handle of a declared struct. -/
def declared (name : String) : TypeReader Arena TypeId := fun types text =>
  (types, (TypeArena.named? types name).map fun id => (id, text))

/-- The type that a word stands for by itself. -/
def ofWord (word : List Char) : TypeReader Arena TypeId :=
  match FloatKind.ofName? (String.ofList word) with
  | some kind => interning (.float kind)
  | none =>
    match word with
    | 'i' :: digits => do
      let bits ← require ((bounded? 10 UInt32.size digits).filter (0 < ·))
      interning (.int (UInt32.ofNat bits))
    | _ => fail

/-- A type without parameter lists behind it; `item` reads the types inside. -/
def base (item : TypeReader Arena TypeId) : TypeReader Arena TypeId := do
  if ← take? "<\x7b" then
    let (fields, _) ← list item "\x7d>"
    interning (.struct ⟨none, fields, true, true⟩)
  else if ← take? "\x7b" then
    let (fields, _) ← list item "\x7d"
    interning (.struct ⟨none, fields, false, true⟩)
  else if ← take? "[" then
    let length ← number UInt64.size
    if (← word) != ['x'] then
      fail
    let elem ← item
    expect "]"
    interning (.array elem (UInt64.ofNat length))
  else if ← take? "%" then
    declared (String.ofList (← word))
  else
    let name ← word
    if name = "void".toList then
      return .void
    else if name = "ptr".toList then
      if ← take? "addrspace(" then
        let space ← number UInt64.size
        let space ← require (if space < UInt32.size then some space else none)
        expect ")"
        interning (.ptr (UInt32.ofNat space))
      else
        return .ptr
    else
      ofWord name

/-- Parameter lists behind the type `ret`.  Every turn takes at least an opening parenthesis. -/
def parameterLists (item : TypeReader Arena TypeId) :
    (turns : Nat) → (ret : TypeId) → TypeReader Arena TypeId
  | 0, _ => fail
  | turns + 1, ret => do
    if ← take? "(" then
      let (params, vararg) ← list item ")"
      let ret ← interning (.func params ret vararg)
      parameterLists item turns ret
    else
      return ret

/-- A type whose brackets are at most `depth` deep. -/
def typeWithin : (depth : Nat) → TypeReader Arena TypeId
  | 0 => fail
  | depth + 1 => do
    let ret ← base (typeWithin depth)
    fun types text => parameterLists (typeWithin depth) (text.length + 1) ret types text

end TypeReader

namespace TypeArena

variable {Arena : Type} [TypeArena Arena]

/-- The type that a text spells, and the arena with the types it mentions.  Brackets are no deeper
than the text is long. -/
def read (types : Arena) (text : List Char) : Arena × Option TypeId :=
  match TypeReader.typeWithin (text.length + 1) types text with
  | (types, some (id, rest)) => (types, if (trimStart rest).isEmpty then some id else none)
  | (types, none) => (types, none)

/-- Like `read`, with a cause for what is no type. -/
def readText (types : Arena) (text : List Char) : Arena × Except ProgramError TypeId :=
  let (types, id?) := read types text
  (types, match id? with
    | some id => .ok id
    | none => .error (.unknownType (String.ofList text)))

end TypeArena

namespace Types

/-- The type that a text spells, and the arena with the types it mentions. -/
def readText (types : Types) (text : List Char) : Types × Except ProgramError TypeId :=
  TypeArena.readText types text

end Types

end IrStream
