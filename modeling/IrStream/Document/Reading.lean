import IrStream.Document.Basic
import IrStream.Json.Record

/-!
# Reading documents

The JSON of a document.  Each record lists its fields in the order in which they stand when the
record is written as an array.  Types, operands and parameters have several forms; they are
scanned whole and then matched against the forms, which are objects and never arrays.
-/

set_option autoImplicit false

namespace IrStream

open Scan

/-! ## Forms -/

/-- The value of a key that occurs at most once; `none` if it occurs twice. -/
def uniqueValue? {α : Type} (key : String) (keys : List String) (values : List α) :
    Option (Option α) :=
  match (keys.zip values).filter (·.1 == key) with
  | [] => some none
  | [(_, value)] => some (some value)
  | _ => none

/-- A flag. -/
def Json.flag? : Json → Option Bool
  | flag value => some value
  | _ => none

/-- A text. -/
def Json.text? : Json → Option String
  | text value => some value
  | _ => none

/-- Parts of a function type while it is put together. -/
structure FuncParts where
  ret : Option TypeNode := none
  params : Option (List TypeNode) := none
  vararg : Option Bool := none

namespace TypeNode

mutual

/-- A text, or an object of `ret`, `params` and `vararg`, of which the first has to be there. -/
def ofJson? : Json → Option TypeNode
  | .text value => some (.text value)
  | .object keys values => do
    let parts ← partsOfJson? keys values
    return .func (← parts.ret) (parts.params.getD []) (parts.vararg.getD false)
  | _ => none

/-- An array of types. -/
def listOfJson? : Json → Option (List TypeNode)
  | .array items => allOfJson? items
  | _ => none

/-- Each of the types. -/
def allOfJson? : List Json → Option (List TypeNode)
  | [] => some []
  | item :: rest => do return (← ofJson? item) :: (← allOfJson? rest)

/-- The parts among the entries of an object, each at most once. -/
def partsOfJson? : List String → List Json → Option FuncParts
  | "ret" :: keys, value :: values => do
    let parts ← partsOfJson? keys values
    if parts.ret.isSome then none
    return { parts with ret := some (← ofJson? value) }
  | "params" :: keys, value :: values => do
    let parts ← partsOfJson? keys values
    if parts.params.isSome then none
    return { parts with params := some (← listOfJson? value) }
  | "vararg" :: keys, value :: values => do
    let parts ← partsOfJson? keys values
    if parts.vararg.isSome then none
    return { parts with vararg := some (← value.flag?) }
  | _ :: keys, _ :: values => partsOfJson? keys values
  | _, _ => some {}

end

end TypeNode

/-- Parts of an aggregate while it is put together. -/
structure AggregateParts where
  type : Option TypeNode := none
  elems : Option (List OperandNode) := none

namespace OperandNode

mutual

/-- A text, or an object of `type` and `elems`. -/
def ofJson? : Json → Option OperandNode
  | .text value => some (.text value)
  | .object keys values => do
    let parts ← partsOfJson? keys values
    return .aggregate (← parts.type) (← parts.elems)
  | _ => none

/-- An array of operands. -/
def listOfJson? : Json → Option (List OperandNode)
  | .array items => allOfJson? items
  | _ => none

/-- Each of the operands. -/
def allOfJson? : List Json → Option (List OperandNode)
  | [] => some []
  | item :: rest => do return (← ofJson? item) :: (← allOfJson? rest)

/-- The parts among the entries of an object, each at most once. -/
def partsOfJson? : List String → List Json → Option AggregateParts
  | "type" :: keys, value :: values => do
    let parts ← partsOfJson? keys values
    if parts.type.isSome then none
    return { parts with type := some (← TypeNode.ofJson? value) }
  | "elems" :: keys, value :: values => do
    let parts ← partsOfJson? keys values
    if parts.elems.isSome then none
    return { parts with elems := some (← listOfJson? value) }
  | _ :: keys, _ :: values => partsOfJson? keys values
  | _, _ => some {}

end

end OperandNode

namespace ParamEntry

/-- An object of `name` and `type`. -/
def namedOfJson? : Json → Option ParamEntry
  | .object keys values => do
    let name ← (← uniqueValue? "name" keys values) >>= Json.text?
    let type ← (← uniqueValue? "type" keys values) >>= TypeNode.ofJson?
    return ⟨some name, type⟩
  | _ => none

/-- A parameter with a name, or just a type. -/
def ofJson? (json : Json) : Option ParamEntry :=
  match namedOfJson? json with
  | some entry => some entry
  | none => (TypeNode.ofJson? json).map (⟨none, ·⟩)

end ParamEntry

/-! ## Records -/

/-- Put a value at the place of its key, over the one that is there. -/
def insertEntry {α : Type} (key : String) (value : α) : List (String × α) → List (String × α)
  | [] => [(key, value)]
  | entry :: rest =>
    if entry.1 = key then (key, value) :: rest else entry :: insertEntry key value rest

namespace StructEntry

/-- Fields scanned so far. -/
structure Parts where
  fields : Option (List TypeNode) := none
  packed : Option Bool := none

def shape : List (FieldShape Parts) := [
  field "fields" (list (anyForm TypeNode.ofJson?)) (·.fields)
    fun parts fields => { parts with fields := some fields },
  field "packed" (fun _ => flagValue) (·.packed)
    fun parts packed => { parts with packed := some packed }]

def scan : (levels : Nat) → Scan StructEntry :=
  record shape {} fun parts => return ⟨← parts.fields, parts.packed.getD false⟩

end StructEntry

namespace GlobalEntry

/-- Fields scanned so far. -/
structure Parts where
  name : Option String := none
  type : Option TypeNode := none
  threadLocal : Option Bool := none
  init : Option (Option OperandNode) := none

def shape : List (FieldShape Parts) := [
  field "name" (fun _ => textValue) (·.name) fun parts name => { parts with name := some name },
  field "type" (anyForm TypeNode.ofJson?) (·.type)
    fun parts type => { parts with type := some type },
  field "thread_local" (fun _ => flagValue) (·.threadLocal)
    fun parts threadLocal => { parts with threadLocal := some threadLocal },
  field "init" (fun levels => optional (anyForm OperandNode.ofJson? levels)) (·.init)
    fun parts init => { parts with init := some init }]

def scan : (levels : Nat) → Scan GlobalEntry :=
  record shape {} fun parts =>
    return ⟨← parts.name, ← parts.type, parts.threadLocal.getD false, parts.init.getD none⟩

end GlobalEntry

namespace InstEntry

/-- Fields scanned so far. -/
structure Parts where
  name : Option (Option String) := none
  op : Option String := none
  type : Option (Option TypeNode) := none
  args : Option (List OperandNode) := none
  alloc : Option (Option TypeNode) := none
  source : Option (Option TypeNode) := none
  predicate : Option (Option String) := none

def shape : List (FieldShape Parts) := [
  field "name" (fun _ => optional textValue) (·.name)
    fun parts name => { parts with name := some name },
  field "op" (fun _ => textValue) (·.op) fun parts op => { parts with op := some op },
  field "type" (fun levels => optional (anyForm TypeNode.ofJson? levels)) (·.type)
    fun parts type => { parts with type := some type },
  field "args" (list (anyForm OperandNode.ofJson?)) (·.args)
    fun parts args => { parts with args := some args },
  field "alloc" (fun levels => optional (anyForm TypeNode.ofJson? levels)) (·.alloc)
    fun parts alloc => { parts with alloc := some alloc },
  field "source" (fun levels => optional (anyForm TypeNode.ofJson? levels)) (·.source)
    fun parts source => { parts with source := some source },
  field "pred" (fun _ => optional textValue) (·.predicate)
    fun parts predicate => { parts with predicate := some predicate }]

def scan : (levels : Nat) → Scan InstEntry :=
  record shape {} fun parts => return {
    name := parts.name.getD none
    op := ← parts.op
    type := parts.type.getD none
    args := parts.args.getD []
    alloc := parts.alloc.getD none
    source := parts.source.getD none
    predicate := parts.predicate.getD none }

end InstEntry

namespace BlockEntry

/-- Fields scanned so far. -/
structure Parts where
  label : Option (Option String) := none
  insts : Option (List InstEntry) := none

def shape : List (FieldShape Parts) := [
  field "label" (fun _ => optional textValue) (·.label)
    fun parts label => { parts with label := some label },
  field "insts" (list InstEntry.scan) (·.insts)
    fun parts insts => { parts with insts := some insts }]

def scan : (levels : Nat) → Scan BlockEntry :=
  record shape {} fun parts => some ⟨parts.label.getD none, parts.insts.getD []⟩

end BlockEntry

namespace FunctionEntry

/-- Fields scanned so far. -/
structure Parts where
  name : Option String := none
  params : Option (List ParamEntry) := none
  ret : Option (Option TypeNode) := none
  vararg : Option Bool := none
  blocks : Option (List BlockEntry) := none

def shape : List (FieldShape Parts) := [
  field "name" (fun _ => textValue) (·.name) fun parts name => { parts with name := some name },
  field "params" (list (anyForm ParamEntry.ofJson?)) (·.params)
    fun parts params => { parts with params := some params },
  field "ret" (fun levels => optional (anyForm TypeNode.ofJson? levels)) (·.ret)
    fun parts ret => { parts with ret := some ret },
  field "vararg" (fun _ => flagValue) (·.vararg)
    fun parts vararg => { parts with vararg := some vararg },
  field "blocks" (list BlockEntry.scan) (·.blocks)
    fun parts blocks => { parts with blocks := some blocks }]

def scan : (levels : Nat) → Scan FunctionEntry :=
  record shape {} fun parts => return {
    name := ← parts.name
    params := parts.params.getD []
    ret := parts.ret.getD none
    vararg := parts.vararg.getD false
    blocks := parts.blocks.getD [] }

end FunctionEntry

namespace DataLayout

/-- Fields scanned so far. -/
structure Parts where
  pointerSize : Option UInt32 := none
  addressSpaces : Option (List (UInt32 × UInt32)) := none

/-- The pointer size of an address space, behind the opening quote of its number. -/
def scanSpace : Scan (UInt32 × UInt32) := do
  let space ← wordKey
  colon
  return (space, ← wordValue)

def shape : List (FieldShape Parts) := [
  field "pointer_size" (fun _ => wordValue) (·.pointerSize)
    fun parts pointerSize => { parts with pointerSize := some pointerSize },
  field "address_spaces" (dictionary fun _ => scanSpace) (·.addressSpaces)
    fun parts addressSpaces => { parts with addressSpaces := some addressSpaces }]

def scan : (levels : Nat) → Scan DataLayout :=
  record shape {} fun parts => some <|
    ofEntries (parts.pointerSize.getD standard.pointerSize) (parts.addressSpaces.getD [])

end DataLayout

namespace Document

/-- Fields scanned so far. -/
structure Parts where
  layout : Option (Option DataLayout) := none
  structs : Option (List (String × Option StructEntry)) := none
  globals : Option (List GlobalEntry) := none
  functions : Option (List FunctionEntry) := none

def shape : List (FieldShape Parts) := [
  field "data_layout" (fun levels => optional (DataLayout.scan levels)) (·.layout)
    fun parts layout => { parts with layout := some layout },
  field "structs" (dictionary fun levels => keyed (optional (StructEntry.scan levels))) (·.structs)
    fun parts structs => { parts with structs := some structs },
  field "globals" (list GlobalEntry.scan) (·.globals)
    fun parts globals => { parts with globals := some globals },
  field "functions" (list FunctionEntry.scan) (·.functions)
    fun parts functions => { parts with functions := some functions }]

def scan : (levels : Nat) → Scan Document :=
  record shape {} fun parts => some {
    layout := parts.layout.getD none
    structs := (parts.structs.getD []).foldl
      (fun known entry => insertEntry entry.1 entry.2 known) []
    globals := parts.globals.getD []
    functions := parts.functions.getD [] }

/-- Arrays and objects of a document are nested at most this deep. -/
def maxLevels : Nat := 127

/-- The document that a text spells. -/
def ofText (text : String) : Except JsonFault Document :=
  Scan.whole (scan maxLevels) text

end Document

end IrStream
