import IrStream.Json.Scan

/-!
# JSON values

`Json` is the tree of a value, and `Json.scan` takes one from a text.  Arrays and objects may be
nested only so deep: the caller says how many more levels it grants, and a bracket beyond them is
malformed.  `Json.skip` passes over a value at any depth without keeping it.
-/

set_option autoImplicit false

namespace IrStream

/-- A JSON value.  Of numbers only the natural ones below `2 ^ 64` are told apart. -/
inductive Json where
  | null
  | flag (value : Bool)
  | number (natural : Option Nat)
  | text (value : String)
  | array (items : List Json)
  | object (keys : List String) (values : List Json)

namespace Scan

/-! ## Between the items of a value -/

/-- Whether another item of an array follows, up to its first character.  The closing bracket is
left where it is. -/
def nextItem (first : Bool) : Scan Bool := do
  match ← peekToken with
  | none => throw .endOfText
  | some ']' => return false
  | some c =>
    if first then
      return true
    if c ≠ ',' then
      throw .malformed
    advance
    match ← peekToken with
    | none => throw .endOfText
    | some ']' => throw .malformed
    | some _ => return true

/-- Whether another key of an object follows, which is then taken up to its opening quote.  The
closing bracket is left where it is. -/
def nextKey (first : Bool) : Scan Bool := do
  match ← peekToken with
  | none => throw .endOfText
  | some '\x7d' => return false
  | some c =>
    if !first then
      if c ≠ ',' then
        throw .malformed
      advance
    match ← peekToken with
    | none => throw .endOfText
    | some '"' =>
      advance
      return true
    | some _ => throw .malformed

/-- Take the closing bracket, or fail with what stands in its place. -/
def close (bracket : Char) : Scan Unit := do
  match ← peekToken with
  | none => throw .endOfText
  | some c => if c = bracket then advance else throw .malformed

/-- Take the colon behind a key. -/
def colon : Scan Unit :=
  close ':'

/-- Items up to a closing bracket, which is left where it is.  Every turn takes at least a
character. -/
def items {α : Type} (item : Scan α) : (turns : Nat) → (first : Bool) → Scan (List α)
  | 0, _ => throw .endOfText
  | turns + 1, first => do
    if ← nextItem first then
      let value ← item
      return value :: (← items item turns false)
    else
      return []

/-- Entries up to a closing bracket, which is left where it is; `entry` takes one behind the opening
quote of its key.  Every turn takes at least a character. -/
def entries {α : Type} (entry : Scan α) : (turns : Nat) → (first : Bool) → Scan (List α)
  | 0, _ => throw .endOfText
  | turns + 1, first => do
    if ← nextKey first then
      let value ← entry
      return value :: (← entries entry turns false)
    else
      return []

/-- An entry behind the opening quote of its key. -/
def keyed {α : Type} (value : Scan α) : Scan (String × α) := do
  let key ← text
  colon
  return (key, ← value)

/-- The array behind an opening bracket. -/
def arrayRest {α : Type} (item : Scan α) : Scan (List α) := do
  let values ← items item ((← get).length + 1) true
  close ']'
  return values

/-- The object behind an opening bracket. -/
def objectRest {α : Type} (entry : Scan α) : Scan (List α) := do
  let values ← entries entry ((← get).length + 1) true
  close '\x7d'
  return values

/-- A value whose first character is `c`, if it is neither an array nor an object. -/
def scalar (c : Char) : Scan Json := do
  match c with
  | 'n' =>
    exactly "null".toList
    return .null
  | 't' =>
    exactly "true".toList
    return .flag true
  | 'f' =>
    exactly "false".toList
    return .flag false
  | '"' =>
    advance
    return .text (← text)
  | c =>
    if c = '-' || isDigit c then
      return .number (← number)
    throw .malformed

end Scan

open Scan

namespace Json

/-- Take a value.  What is inside arrays and objects is taken by `inner`; without it they are too
deep. -/
def scanOver (inner : Option (Scan Json)) : Scan Json := do
  match ← peekToken with
  | none => throw .endOfText
  | some '[' =>
    let some item := inner | throw .malformed
    advance
    return .array (← arrayRest item)
  | some '\x7b' =>
    let some value := inner | throw .malformed
    advance
    let entries ← objectRest (keyed value)
    return .object (entries.map (·.1)) (entries.map (·.2))
  | some c => scalar c

/-- Take a value with at most `levels` nested arrays and objects. -/
def scan : (levels : Nat) → Scan Json
  | 0 => scanOver none
  | levels + 1 => scanOver (some (scan levels))

/-! ## Values that nobody uses -/

/-- The bracket that closes an open one. -/
def closing (bracket : Char) : Char :=
  if bracket = '[' then ']' else '\x7d'

/-- Pass over a value that is neither an array nor an object, whose first character is `c`. -/
def skipScalar (c : Char) : Scan Unit := do
  match c with
  | 'n' => exactly "null".toList
  | 't' => exactly "true".toList
  | 'f' => exactly "false".toList
  | '"' =>
    advance
    skipText
  | c =>
    if c = '-' || isDigit c then
      skipNumber
    else
      throw .malformed

/-- Pass over the key of an entry and its colon. -/
def skipKey : Scan Unit := do
  match ← peekToken with
  | none => throw .endOfText
  | some '"' =>
    advance
    skipText
    colon
  | some _ => throw .malformed

mutual

/-- Pass over a value and what closes the brackets in `opened`, innermost first.  Every turn takes
a character. -/
def skipValue : (turns : Nat) → (opened : List Char) → Scan Unit
  | 0, _ => throw .endOfText
  | turns + 1, opened => do
    match ← peekToken with
    | none => throw .endOfText
    | some c =>
      if c = '[' || c = '\x7b' then
        advance
        match ← peekToken with
        | none => throw .endOfText
        | some d =>
          if d = closing c then
            advance
            skipBehind turns opened
          else
            if c = '\x7b' then
              skipKey
            skipValue turns (c :: opened)
      else
        skipScalar c
        skipBehind turns opened

/-- Pass over what closes the brackets in `opened`, behind a value in the innermost. -/
def skipBehind : (turns : Nat) → (opened : List Char) → Scan Unit
  | _, [] => return
  | 0, _ => throw .endOfText
  | turns + 1, bracket :: opened => do
    match ← peekToken with
    | none => throw .endOfText
    | some ',' =>
      advance
      if bracket = '\x7b' then
        skipKey
      skipValue turns (bracket :: opened)
    | some c =>
      if c ≠ closing bracket then
        throw .malformed
      advance
      skipBehind turns opened

end

/-- Pass over a value, at any depth. -/
def skip : Scan Unit := do
  skipValue (2 * (← get).length + 2) []

end Json

end IrStream
