/-!
# Integer comparison predicates

The payload of a predicate operand is one of these ten.  The format has no floating-point
predicates.
-/

set_option autoImplicit false

namespace IrStream

/-- How two integers are compared. -/
inductive IntPredicate where
  | equal
  | notEqual
  | unsignedGreater
  | unsignedGreaterEqual
  | unsignedLess
  | unsignedLessEqual
  | signedGreater
  | signedGreaterEqual
  | signedLess
  | signedLessEqual
  deriving DecidableEq

namespace IntPredicate

/-- Every predicate, in the order of their bytes. -/
def all : List IntPredicate :=
  [equal, notEqual, unsignedGreater, unsignedGreaterEqual, unsignedLess, unsignedLessEqual,
    signedGreater, signedGreaterEqual, signedLess, signedLessEqual]

def toByte : IntPredicate → UInt8
  | equal => 0
  | notEqual => 1
  | unsignedGreater => 2
  | unsignedGreaterEqual => 3
  | unsignedLess => 4
  | unsignedLessEqual => 5
  | signedGreater => 6
  | signedGreaterEqual => 7
  | signedLess => 8
  | signedLessEqual => 9

/-- The predicate of a byte, if it has one. -/
def ofByte? (byte : UInt8) : Option IntPredicate :=
  all.find? (·.toByte == byte)

def name : IntPredicate → String
  | equal => "eq"
  | notEqual => "ne"
  | unsignedGreater => "ugt"
  | unsignedGreaterEqual => "uge"
  | unsignedLess => "ult"
  | unsignedLessEqual => "ule"
  | signedGreater => "sgt"
  | signedGreaterEqual => "sge"
  | signedLess => "slt"
  | signedLessEqual => "sle"

/-- The predicate of that name, if there is one. -/
def ofName? (text : String) : Option IntPredicate :=
  all.find? (·.name == text)

/-- Whether the comparison reads its operands as signed. -/
def isSigned : IntPredicate → Bool
  | signedGreater | signedGreaterEqual | signedLess | signedLessEqual => true
  | _ => false

theorem ofByte?_toByte (predicate : IntPredicate) :
    ofByte? predicate.toByte = some predicate := by
  cases predicate <;> rfl

theorem ofName?_name (predicate : IntPredicate) : ofName? predicate.name = some predicate := by
  cases predicate <;> rfl

end IntPredicate

end IrStream
