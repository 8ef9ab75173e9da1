import IrStream.Json.Value

/-!
# Scanning JSON of a known shape

What a document has to look like is said by scans of values of a known shape.  They check while
they scan, so the first fault in the text decides, be it a character that no JSON has there or a
value of the wrong shape.

A record is written as an object of its fields or as the array of their values in order.  Entries
of the object that are no fields are passed over; a field given twice, and one that is missing
without having a default, is a fault of shape.
-/

set_option autoImplicit false

namespace IrStream

namespace Scan

/-- The next value has the wrong shape.  If it is neither an array nor an object, a fault in its
text comes first. -/
def mismatch {α : Type} : Scan α := do
  match ← peekToken with
  | none => throw .endOfText
  | some '[' | some '\x7b' => throw .wrongShape
  | some c =>
    let _ ← scalar c
    throw .wrongShape

/-- A text. -/
def textValue : Scan String := do
  match ← peekToken with
  | some '"' =>
    advance
    text
  | _ => mismatch

/-- `true` or `false`. -/
def flagValue : Scan Bool := do
  match ← peekToken with
  | some 't' =>
    exactly "true".toList
    return true
  | some 'f' =>
    exactly "false".toList
    return false
  | _ => mismatch

/-- The 32-bit value of a number. -/
def wordOfNumber : Option Nat → Scan UInt32
  | some value => if value < UInt32.size then return UInt32.ofNat value else throw .wrongShape
  | none => throw .wrongShape

/-- A natural number below `2 ^ 32`. -/
def wordValue : Scan UInt32 := do
  match ← peekToken with
  | some c => if c = '-' || isDigit c then wordOfNumber (← number) else mismatch
  | none => mismatch

/-- A natural number below `2 ^ 32` as a key, behind its opening quote. -/
def wordKey : Scan UInt32 := do
  match ← peek with
  | some c =>
    if !(c = '-' || isDigit c) then
      throw .malformed
  | none => throw .malformed
  let key ← wordOfNumber (← number)
  if (← peek) ≠ some '"' then
    throw .malformed
  advance
  return key

/-- A value, or `null` for none. -/
def optional {α : Type} (value : Scan α) : Scan (Option α) := do
  match ← peekToken with
  | some 'n' =>
    exactly "null".toList
    return none
  | _ => return some (← value)

/-- A value that is scanned whole, with at most `levels` nested arrays and objects, before it is
known which form it has. -/
def anyForm {α : Type} (ofJson? : Json → Option α) (levels : Nat) : Scan α := do
  match ofJson? (← Json.scan levels) with
  | some value => return value
  | none => throw .wrongShape

/-- What takes the inside of a bracket, if there is a level left for it. -/
def descend : (levels : Nat) → Scan Nat
  | 0 => throw .malformed
  | levels + 1 => do
    advance
    return levels

/-- An array; its items have a level less. -/
def list {α : Type} (item : (levels : Nat) → Scan α) (levels : Nat) : Scan (List α) := do
  match ← peekToken with
  | some '[' => arrayRest (item (← descend levels))
  | _ => mismatch

/-- An object whose keys are free; its values have a level less. -/
def dictionary {α : Type} (entry : (levels : Nat) → Scan α) (levels : Nat) : Scan (List α) := do
  match ← peekToken with
  | some '\x7b' => objectRest (entry (← descend levels))
  | _ => mismatch

/-! ## Records -/

/-- A field of a record, while `σ` holds the fields scanned so far. -/
structure FieldShape (σ : Type) where
  key : String
  isSet : σ → Bool
  /-- Scan the value and put it among the fields. -/
  scan : (levels : Nat) → σ → Scan σ

/-- A field whose place among the others is given by `get?` and `set`. -/
def field {σ α : Type} (key : String) (value : (levels : Nat) → Scan α) (get? : σ → Option α)
    (set : σ → α → σ) : FieldShape σ where
  key := key
  isSet fields := (get? fields).isSome
  scan levels fields := return set fields (← value levels)

/-- Entries of a record that is written as an object.  Every turn takes at least a character. -/
def recordEntries {σ : Type} (shape : List (FieldShape σ)) (levels : Nat) :
    (turns : Nat) → (first : Bool) → σ → Scan σ
  | 0, _, _ => throw .endOfText
  | turns + 1, first, fields => do
    if ← nextKey first then
      let key ← text
      match shape.find? (·.key == key) with
      | some field =>
        if field.isSet fields then
          throw .wrongShape
        colon
        let fields ← field.scan levels fields
        recordEntries shape levels turns false fields
      | none =>
        colon
        Json.skip
        recordEntries shape levels turns false fields
    else
      return fields

/-- Values of a record that is written as an array, as many as there are. -/
def recordItems {σ : Type} (levels : Nat) :
    (shape : List (FieldShape σ)) → (first : Bool) → σ → Scan σ
  | [], _, fields => return fields
  | field :: shape, first, fields => do
    if ← nextItem first then
      recordItems levels shape false (← field.scan levels fields)
    else
      return fields

/-- A record.  `finish` puts it together from its fields, unless one is missing. -/
def record {σ α : Type} (shape : List (FieldShape σ)) (start : σ) (finish : σ → Option α)
    (levels : Nat) : Scan α := do
  let complete (fields : σ) : Scan α :=
    match finish fields with
    | some value => return value
    | none => throw .wrongShape
  match ← peekToken with
  | some '[' =>
    let levels ← descend levels
    let value ← complete (← recordItems levels shape true start)
    close ']'
    return value
  | some '\x7b' =>
    let levels ← descend levels
    let value ← complete (← recordEntries shape levels ((← get).length + 1) true start)
    close '\x7d'
    return value
  | _ => mismatch

/-- A whole text that is one value. -/
def whole {α : Type} (value : Scan α) (text : String) : Except JsonFault α := do
  let scan : Scan α := do
    let result ← value
    match ← peekToken with
    | none => return result
    | some _ => throw .malformed
  return (← scan.run text.toList).1

end Scan

end IrStream
