import IPPcode24.Opcode

/-!
# Errors of source texts

What can be wrong with a source text, with the number of the line that is wrong.
-/

namespace IPPcode24

/-- What is wrong with a line of source text. -/
inductive SourceFault where
  | missingHeader
  | duplicateHeader
  | unknownOpcode (word : Text)
  | operandCount (opcode : Opcode) (found : Nat)
  | invalidOperand (slot : Slot) (word : Text)
  | noInstruction
deriving DecidableEq

/-- A fault with the number of its line. A header that is missing because no line
has words is reported for line zero. -/
structure SourceError where
  line : Nat
  fault : SourceFault
deriving DecidableEq

namespace SourceError

def message (error : SourceError) : String :=
  let line := s!"line {error.line}"
  match error.fault with
  | .missingHeader => s!"{line}: missing or malformed .IPPcode24 header"
  | .duplicateHeader => s!"{line}: repeated .IPPcode24 header"
  | .unknownOpcode word => s!"{line}: unknown opcode '{Text.shown word}'"
  | .operandCount opcode found =>
    let expected := opcode.signature.length
    s!"{line}: {opcode.mnemonic} expects {expected} operand(s), found {found}"
  | .invalidOperand slot word =>
    s!"{line}: invalid {slot.name} operand '{Text.shown word}'"
  | .noInstruction => s!"{line}: invalid instruction operand ''"

def exitCode (error : SourceError) : Nat :=
  match error.fault with
  | .missingHeader => 21
  | .duplicateHeader | .unknownOpcode _ => 22
  | .operandCount _ _ | .invalidOperand _ _ | .noInstruction => 23

end SourceError

end IPPcode24
