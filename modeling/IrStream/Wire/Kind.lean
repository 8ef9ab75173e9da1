/-!
# Tag bytes of operands and types

Every operand and every type record begins with a byte that says which payload follows.  In both
sets 255 marks an escape: a text in place of a structured payload.
-/

set_option autoImplicit false

namespace IrStream

/-- What an operand refers to. -/
inductive OperandKind where
  /-- A position in the constants section. -/
  | constant
  /-- A block and an instruction position within the function. -/
  | localVariable
  /-- A position in the types section. -/
  | type
  /-- A position among the functions. -/
  | function
  /-- A block position within the function. -/
  | block
  /-- An argument number. -/
  | arg
  /-- A position in the globals section. -/
  | global
  /-- A comparison predicate. -/
  | predicate
  /-- A text. -/
  | unimplemented
  deriving DecidableEq

namespace OperandKind

def toByte : OperandKind → UInt8
  | constant => 0
  | localVariable => 1
  | type => 2
  | function => 3
  | block => 4
  | arg => 5
  | global => 6
  | predicate => 7
  | unimplemented => 255

/-- The operand kind of a byte, if it has one. -/
def ofByte? : UInt8 → Option OperandKind
  | 0 => some constant
  | 1 => some localVariable
  | 2 => some type
  | 3 => some function
  | 4 => some block
  | 5 => some arg
  | 6 => some global
  | 7 => some predicate
  | 255 => some unimplemented
  | _ => none

/-- Name used in listings. -/
def name : OperandKind → String
  | constant => "constant"
  | localVariable => "local"
  | type => "type"
  | function => "function"
  | block => "block"
  | arg => "arg"
  | global => "global"
  | predicate => "predicate"
  | unimplemented => "unimplemented"

theorem ofByte?_toByte (kind : OperandKind) : ofByte? kind.toByte = some kind := by
  cases kind <;> rfl

end OperandKind

/-- The shapes that a type record can have. -/
inductive TypeKind where
  | void
  /-- Followed by the bit width. -/
  | integer
  /-- Always one word wide. -/
  | pointer
  /-- Followed by the parameters, the return type and the vararg flag. -/
  | function
  /-- Followed by the fields and their bit offsets. -/
  | struct
  /-- Followed by the type's text. -/
  | unimplemented
  deriving DecidableEq

namespace TypeKind

def toByte : TypeKind → UInt8
  | void => 0
  | integer => 1
  | pointer => 2
  | function => 3
  | struct => 4
  | unimplemented => 255

/-- The type kind of a byte, if it has one. -/
def ofByte? : UInt8 → Option TypeKind
  | 0 => some void
  | 1 => some integer
  | 2 => some pointer
  | 3 => some function
  | 4 => some struct
  | 255 => some unimplemented
  | _ => none

/-- Whether records of this kind refer to other types. -/
def isAggregate : TypeKind → Bool
  | function => true
  | struct => true
  | _ => false

theorem ofByte?_toByte (kind : TypeKind) : ofByte? kind.toByte = some kind := by
  cases kind <;> rfl

end TypeKind

end IrStream
