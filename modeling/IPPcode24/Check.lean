import IPPcode24.Fault
import IPPcode24.Operation.Arithmetic

/-!
# Checks

Two checks come before an instruction acts: whether its operands have the classes
that its slots accept, and whether the values of the operands are of the kinds
that it needs. A check of a value hands out what the value holds.
-/

namespace IPPcode24

/-- Whether an operand of the class may fill the slot at a position. -/
def checkClass (slot : Slot) (position : Nat) (operandClass : OperandClass) :
    Except Fault Unit :=
  if slot.accepts operandClass then .ok ()
  else .error (.operandClass position slot operandClass)

/-- Whether operands may fill slots, one by one from a position on. -/
def checkClasses (position : Nat) : List Slot → List Operand → Except Fault Unit
  | slot :: slots, operand :: operands => do
    checkClass slot position operand.operandClass
    checkClasses (position + 1) slots operands
  | _, _ => .ok ()

/-- Whether there are at least as many operands as slots, and the first ones may
fill the slots. Further operands are not looked at. -/
def checkOperands (opcode : Opcode) (operands : List Operand) : Except Fault Unit :=
  if operands.length < opcode.signature.length then
    .error (.operandCount opcode operands.length)
  else checkClasses 0 opcode.signature operands

namespace Value

/-- The fault of a value that is not of the required kind. A variable without a
value is missing rather than wrong. -/
def unfit (required : Requirement) (value : Value) : Fault :=
  if value = uninitialized then .missingValue
  else .operandValue (.wrongKind required value.kind)

/-- The integer that a value is, or that a float without a fractional part stands
for. -/
def asInt : Value → Except Fault Int64
  | int n => .ok n
  | float x => x.asInteger.mapError OperationError.fault
  | value => .error (unfit .int value)

def asBool : Value → Except Fault Bool
  | bool b => .ok b
  | value => .error (unfit .bool value)

def asText : Value → Except Fault Text
  | string text => .ok text
  | value => .error (unfit .string value)

def asFloat : Value → Except Fault Binary64
  | float x => .ok x
  | value => .error (unfit .float value)

/-- The type that a text names. -/
def asKind : Value → Except Fault Kind
  | string text =>
    match Kind.ofName? text with
    | some kind => .ok kind
    | none => .error (.operandValue (.notTypeName text))
  | value => .error (unfit .typeName value)

end Value

end IPPcode24
