import IPPcode24.Instruction

/-!
# Programs

A program is a sequence of instructions in ascending order of their keys, with
the place of every label. Building one checks first that no key is repeated, then
the labels in the order of the sequence.
-/

namespace IPPcode24

/-- Why a list of instructions is no program. Places count from zero in the
ordered sequence. -/
inductive BuildError where
  | duplicateOrder (order : Int)
  | duplicateLabel (name : Text) (place : Nat)
  | malformedLabel (place : Nat)
deriving DecidableEq

namespace BuildError

def message : BuildError → String
  | duplicateOrder order =>
    let key := Text.shown (Text.ofInt order)
    s!"duplicate instruction order {key}"
  | duplicateLabel name place =>
    s!"label '{Text.shown name}' redefined at instruction {place}"
  | malformedLabel place => s!"malformed LABEL at instruction {place}"

def exitCode : BuildError → Nat
  | duplicateOrder _ => 32
  | duplicateLabel _ _ => 52
  | malformedLabel _ => 32

end BuildError

/-- The place of each label, in the order of declaration. -/
abbrev LabelTable := List (Text × Nat)

namespace LabelTable

def resolve? (labels : LabelTable) (name : Text) : Option Nat := labels.lookup name

/-- The name that a label instruction declares: its only operand, which must be of
class label. -/
def declaredName? (instruction : Instruction) : Option Text :=
  match instruction.operands with
  | [operand] => if operand.operandClass = .label then some operand.text else none
  | _ => none

/-- The labels of the instructions from a place on, added to those before it. -/
def scanFrom (place : Nat) (labels : LabelTable) :
    List Instruction → Except BuildError LabelTable
  | [] => .ok labels
  | instruction :: rest =>
    if instruction.isLabel then
      match declaredName? instruction with
      | none => .error (.malformedLabel place)
      | some name =>
        if (labels.resolve? name).isSome then .error (.duplicateLabel name place)
        else scanFrom (place + 1) (labels ++ [(name, place)]) rest
    else scanFrom (place + 1) labels rest

def scan (instructions : List Instruction) : Except BuildError LabelTable :=
  scanFrom 0 [] instructions

end LabelTable

structure Program where
  instructions : List Instruction
  labels : LabelTable
deriving DecidableEq

namespace Program

/-- The first key that occurred before, among keys that follow the seen ones. -/
def repeatedAfter (seen : List Int) : List Int → Option Int
  | [] => none
  | key :: rest => if key ∈ seen then some key else repeatedAfter (key :: seen) rest

/-- The first key that occurred before. -/
def repeatedKey? (keys : List Int) : Option Int := repeatedAfter [] keys

/-- An instruction put before the first one whose key is not smaller. -/
def insert (instruction : Instruction) : List Instruction → List Instruction
  | [] => [instruction]
  | other :: rest =>
    if instruction.order ≤ other.order then instruction :: other :: rest
    else other :: insert instruction rest

/-- The instructions in ascending order of their keys. -/
def sorted (records : List Instruction) : List Instruction := records.foldr insert []

def build (records : List Instruction) : Except BuildError Program :=
  match repeatedKey? (records.map (·.order)) with
  | some order => .error (.duplicateOrder order)
  | none => do
    let instructions := sorted records
    let labels ← LabelTable.scan instructions
    return ⟨instructions, labels⟩

def size (program : Program) : Nat := program.instructions.length

end Program

end IPPcode24
