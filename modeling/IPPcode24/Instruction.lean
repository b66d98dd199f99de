import IPPcode24.Opcode
import IPPcode24.Text.Capitals

/-!
# Instructions

An instruction carries the key that orders it, its mnemonic as it was given, and
its operands. The mnemonic is looked up only when the instruction is reached, so
a program may hold instructions that do not exist.
-/

namespace IPPcode24

structure Instruction where
  order : Int
  mnemonic : Text
  operands : List Operand
deriving DecidableEq

namespace Instruction

/-- The opcode that the mnemonic names, in any letter case. -/
def opcode? (instruction : Instruction) : Option Opcode :=
  Opcode.ofMnemonic? instruction.mnemonic

/-- Whether the instruction declares a label. -/
def isLabel (instruction : Instruction) : Bool :=
  Text.sameLetters Opcode.label.mnemonic.toList instruction.mnemonic

/-- The instruction as a line of source text: the mnemonic in capitals and the
operands, separated by single spaces. -/
def source (instruction : Instruction) : Text :=
  Text.capitals instruction.mnemonic ++
    instruction.operands.flatMap fun operand => ' ' :: operand.source

end Instruction

end IPPcode24
