import IrStream.Types.Layout

/-!
# Program documents

A `Document` is a program as it is written down: entities are listed with their names, types and
operands are still text, and nothing has been looked up.  Types and operands also have a
structured form, for function signatures and for aggregate constants.
-/

set_option autoImplicit false

namespace IrStream

/-- A type as it is written. -/
inductive TypeNode where
  | text (text : String)
  | func (ret : TypeNode) (params : List TypeNode) (vararg : Bool)

/-- An operand or a constant as it is written. -/
inductive OperandNode where
  | text (text : String)
  | aggregate (type : TypeNode) (elems : List OperandNode)

/-- A parameter of a function. -/
structure ParamEntry where
  name : Option String
  type : TypeNode

/-- The body of a named struct. -/
structure StructEntry where
  fields : List TypeNode
  packed : Bool

structure GlobalEntry where
  name : String
  type : TypeNode
  threadLocal : Bool
  init : Option OperandNode

structure InstEntry where
  name : Option String
  op : String
  /-- Result type; without it the operation decides. -/
  type : Option TypeNode
  args : List OperandNode
  /-- Allocated type of an `alloca`. -/
  alloc : Option TypeNode
  /-- Source element type of a `getelementptr`. -/
  source : Option TypeNode
  /-- Predicate of a comparison. -/
  predicate : Option String

structure BlockEntry where
  label : Option String
  insts : List InstEntry

structure FunctionEntry where
  name : String
  params : List ParamEntry
  /-- Return type; without it nothing is returned. -/
  ret : Option TypeNode
  vararg : Bool
  blocks : List BlockEntry

/-- A program as it is written. -/
structure Document where
  layout : Option DataLayout
  /-- Named structs, each at most once; one without a body stays opaque to layouts. -/
  structs : List (String × Option StructEntry)
  globals : List GlobalEntry
  functions : List FunctionEntry

end IrStream
