import IPPcode24.Instruction
import IPPcode24.Source.Error
import IPPcode24.Source.Line
import IPPcode24.Source.Word

/-!
# Assembling

A source text is the header and then one instruction on each line with words. The
instructions get the keys one, two, three and so on. The first fault ends the
reading.
-/

namespace IPPcode24.Source

/-- What reading a source text gives. -/
abbrev Assembled := Except (Failure SourceError)

def failAt {α : Type} (line : Nat) (fault : SourceFault) : Assembled α :=
  .error (.error ⟨line, fault⟩)

/-- The operands that words are in the slots of an opcode. -/
def operands (line : Nat) : List Slot → List Text → Assembled (List Operand)
  | slot :: slots, word :: words => do
    match ← orCrash (operandOf? slot word) with
    | none => failAt line (.invalidOperand slot word)
    | some operand =>
      let others ← operands line slots words
      return operand :: others
  | _, _ => return []

/-- The instruction on a line, with its key. -/
def instruction (line : Nat) (order : Int) (words : List Text) : Assembled Instruction :=
  if words.any isHeader then failAt line .duplicateHeader
  else
    match words with
    | [] => failAt line .noInstruction
    | mnemonic :: arguments =>
      match Opcode.ofMnemonic? mnemonic with
      | none => failAt line (.unknownOpcode mnemonic)
      | some opcode =>
        if arguments.length ≠ opcode.signature.length then
          failAt line (.operandCount opcode arguments.length)
        else do
          let operands ← operands line opcode.signature arguments
          return ⟨order, opcode.mnemonic.toList, operands⟩

/-- The instructions on numbered lines, with keys from the given one on. -/
def instructions (order : Int) : List (Nat × List Text) → Assembled (List Instruction)
  | [] => return []
  | (line, words) :: rest => do
    let first ← instruction line order words
    let others ← instructions (order + 1) rest
    return first :: others

def assemble (text : Text) : Assembled (List Instruction) :=
  match wordedLines text with
  | [] => failAt 0 .missingHeader
  | (line, words) :: rest =>
    match words with
    | [word] => if isHeader word then instructions 1 rest else failAt line .missingHeader
    | _ => failAt line .missingHeader

end IPPcode24.Source
