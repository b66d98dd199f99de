import IPPcode24.Frames
import IPPcode24.Opcode
import IPPcode24.Operation.Error
import IPPcode24.Output

/-!
# Faults

Everything that can be wrong with an instruction when it is executed, with the
message and the exit code of each fault.
-/

namespace IPPcode24

/-- What an instruction asks of a value. -/
inductive Requirement where
  | int
  | bool
  | typeName
  | string
  | float
deriving DecidableEq

def Requirement.name : Requirement → String
  | int => "int"
  | bool => "bool"
  | typeName => "type name"
  | string => "string"
  | float => "float"

/-- Why the value of an operand does not serve. -/
inductive BadOperand where
  | notVariable (text : Text)
  | notLiteral (kind : Kind) (text : Text)
  | wrongKind (required : Requirement) (found : Kind)
  | notTypeName (text : Text)
  | mismatch (reason : Mismatch)
deriving DecidableEq

def BadOperand.message : BadOperand → String
  | notVariable text => s!"'{Text.shown text}' is not a variable reference"
  | notLiteral kind text => s!"'{Text.shown text}' is not a valid {kind.name} literal"
  | wrongKind required found => s!"expected {required.name}, found {found.name}"
  | notTypeName text => s!"'{Text.shown text}' is not a type name"
  | mismatch reason => reason.message

/-- What must never happen; the checks of an instruction rule it out. -/
inductive InternalFault where
  | literalExpected (operandClass : OperandClass)
  | lengthOutOfRange
deriving DecidableEq

def InternalFault.message : InternalFault → String
  | literalExpected operandClass => s!"{operandClass.name} operand is not a literal"
  | lengthOutOfRange => "string length exceeds int range"

inductive Fault where
  | unknownOpcode (mnemonic : Text)
  | operandCount (opcode : Opcode) (found : Nat)
  | operandClass (position : Nat) (expected : Slot) (found : OperandClass)
  | operandValue (reason : BadOperand)
  | missingValue
  | variableRedefined (ref : Variable)
  | variableUndefined (ref : Variable)
  | frameUndefined (tag : FrameTag)
  | labelUndefined (name : Text)
  | emptyCallStack
  | divisionByZero
  | exitCode (code : Int64)
  | character (reason : CharacterError)
  | output (error : OutputError)
  | internal (fault : InternalFault)
deriving DecidableEq

def FrameError.fault : FrameError → Fault
  | redefined ref => .variableRedefined ref
  | undefined ref => .variableUndefined ref
  | missing tag => .frameUndefined tag

def OperationError.fault : OperationError → Fault
  | divisionByZero => .divisionByZero
  | mismatch reason => .operandValue (.mismatch reason)
  | character reason => .character reason
  | missing => .missingValue

/-- A fault with the place of its instruction in the program. -/
structure RunError where
  place : Nat
  fault : Fault
deriving DecidableEq

namespace RunError

def message (error : RunError) : String :=
  let place := s!"at instruction {error.place}"
  match error.fault with
  | .unknownOpcode mnemonic => s!"unknown opcode '{Text.shown mnemonic}' {place}"
  | .operandCount opcode found =>
    let expected := opcode.signature.length
    s!"{opcode.mnemonic} expects {expected} operand(s), found {found} {place}"
  | .operandClass position expected found =>
    s!"operand {position} must be {expected.name}, found {found.name} {place}"
  | .operandValue reason => s!"invalid operand value: {reason.message} {place}"
  | .missingValue => s!"missing value {place}"
  | .variableRedefined ref => s!"variable '{Text.shown ref.source}' redefined {place}"
  | .variableUndefined ref => s!"variable '{Text.shown ref.source}' undefined {place}"
  | .frameUndefined tag => s!"{tag.name} frame undefined {place}"
  | .labelUndefined name => s!"label '{Text.shown name}' undefined {place}"
  | .emptyCallStack => s!"RETURN with empty call stack {place}"
  | .divisionByZero => s!"division by zero {place}"
  | .exitCode code =>
    let shown := Text.shown (Text.ofInt code.toInt)
    s!"invalid exit code {shown} {place}"
  | .character reason => s!"invalid string operation: {reason.message} {place}"
  | .output reason => s!"output failed {place}: {reason.message}"
  | .internal reason => s!"internal error {place}: {reason.message}"

def exitCode (error : RunError) : Nat :=
  match error.fault with
  | .unknownOpcode _ | .operandCount _ _ | .operandClass _ _ _ => 32
  | .variableRedefined _ | .labelUndefined _ => 52
  | .operandValue _ => 53
  | .variableUndefined _ => 54
  | .frameUndefined _ => 55
  | .missingValue | .emptyCallStack => 56
  | .divisionByZero | .exitCode _ => 57
  | .character _ => 58
  | .output _ => 12
  | .internal _ => 99

end RunError

end IPPcode24
