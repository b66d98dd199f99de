import IPPcode24.Check
import IPPcode24.Literal.Decode
import IPPcode24.Operation.Characters
import IPPcode24.Operation.Comparison
import IPPcode24.Program
import IPPcode24.Text.Escape

/-!
# Plans

What an instruction is going to do follows from the labels of the program, the
frames and its operands. The plan is a single effect, and it is settled only when
every check that comes before the effect has passed: the operand classes, the
label, the values of the symbols in order, their kinds, and the operation itself.
-/

namespace IPPcode24

/-- What an opcode does, apart from which of its symbols comes first. -/
inductive Action where
  | move
  | createFrame
  | pushFrame
  | popFrame
  | define
  | call
  | ret
  | arithmetic (operation : Arithmetic)
  | relation (wanted : Relation)
  | connective (operation : Connective)
  | negation
  | intToChar
  | charToInt
  | read
  | write
  | concat
  | length
  | getChar
  | setChar
  | typeOf
  | pass
  | jump
  | jumpIf (equal : Bool)
  | exit
  | print
  | inspect
  | intToFloat
  | floatToInt
deriving DecidableEq

/-- An opcode of the stack family does what the opcode without the family's letter
does. -/
def Opcode.action : Opcode → Action
  | move => .move
  | createFrame => .createFrame
  | pushFrame => .pushFrame
  | popFrame => .popFrame
  | defVar => .define
  | call => .call
  | ret => .ret
  | add | adds => .arithmetic .add
  | sub | subs => .arithmetic .sub
  | mul | muls => .arithmetic .mul
  | idiv | idivs => .arithmetic .idiv
  | lt | lts => .relation .lt
  | gt | gts => .relation .gt
  | eq | eqs => .relation .eq
  | and | ands => .connective .and
  | or | ors => .connective .or
  | not | nots => .negation
  | int2Char | int2Chars => .intToChar
  | stri2Int | stri2Ints => .charToInt
  | read => .read
  | write => .write
  | concat => .concat
  | strLen => .length
  | getChar => .getChar
  | setChar => .setChar
  | type => .typeOf
  | label => .pass
  | jump => .jump
  | jumpIfEq | jumpIfEqs => .jumpIf true
  | jumpIfNeq | jumpIfNeqs => .jumpIf false
  | exit => .exit
  | dprint => .print
  | breakpoint => .inspect
  | int2Float => .intToFloat
  | float2Int => .floatToInt

/-- What an instruction does to the machine. -/
inductive Effect where
  | pass
  | define (ref : Variable)
  | assign (ref : Variable) (value : Value)
  | read (target : Operand) (kind : Kind)
  | write (text : Text)
  | createFrame
  | pushFrame
  | popFrame
  | jump (place : Nat)
  | call (place : Nat)
  | ret
  | exit (code : Fin 10)
  | print (operand : Operand)
  | inspect
deriving DecidableEq

/-- An outcome of executing an instruction, without the place of the fault. -/
abbrev Attempt := Except (Failure Fault)

def fail {α : Type} (fault : Fault) : Attempt α := .error (.error fault)

def operandAt (operands : List Operand) (position : Nat) : Attempt Operand :=
  match operands[position]? with
  | some operand => .ok operand
  | none => .error (.crash .absentOperand)

def Operand.reference (operand : Operand) : Attempt Variable :=
  match Variable.ofSource? operand.text with
  | some ref => .ok ref
  | none => fail (.operandValue (.notVariable operand.text))

def Operand.literal (operand : Operand) : Attempt Value :=
  match operand.operandClass with
  | .literal kind => do
    match ← orCrash (Literal.decode kind operand.text) with
    | some value => return value
    | none => fail (.operandValue (.notLiteral kind operand.text))
  | operandClass => fail (.internal (.literalExpected operandClass))

/-- What a symbol stands for; a variable may be without a value. -/
def Frames.content (frames : Frames) (operand : Operand) : Attempt Value :=
  if operand.operandClass = .var then do
    let ref ← operand.reference
    orError ((frames.get ref).mapError FrameError.fault)
  else operand.literal

def Frames.value (frames : Frames) (operand : Operand) : Attempt Value := do
  match ← frames.content operand with
  | .uninitialized => fail .missingValue
  | value => return value

/-- The place of the label that an operand names. -/
def LabelTable.target (labels : LabelTable) (operand : Operand) : Attempt Nat :=
  match labels.resolve? operand.text with
  | some place => .ok place
  | none => fail (.labelUndefined operand.text)

/-- The assignment of a value to the variable that the first operand names. -/
def assignFirst (operands : List Operand) (value : Value) : Attempt Effect := do
  let target ← operandAt operands 0
  let ref ← target.reference
  return .assign ref value

def valueAt (frames : Frames) (operands : List Operand) (position : Nat) :
    Attempt Value := do
  let operand ← operandAt operands position
  frames.value operand

/-- The left-hand and the right-hand side among the second and third operand, the
left-hand side looked up first. -/
def valuesOfPair (frames : Frames) (order : SymbolOrder) (operands : List Operand) :
    Attempt (Value × Value) := do
  let second ← operandAt operands 1
  let third ← operandAt operands 2
  let (first, last) := order.arrange second third
  let left ← frames.value first
  let right ← frames.value last
  return (left, right)

/-- The symbol that a negation is applied to: the second operand, or in reversed
order the third one if there is one. -/
def negated (order : SymbolOrder) (operands : List Operand) : Attempt Operand :=
  match order, operands[2]? with
  | .reversed, some operand => do
    orError (checkClass .symbol 2 operand.operandClass)
    return operand
  | _, _ => operandAt operands 1

def integerLength (text : Text) : Attempt Int64 :=
  if text.length < 0x8000000000000000 then .ok (Int64.ofNat text.length)
  else fail (.internal .lengthOutOfRange)

/-- The exit that a code below ten stands for. -/
def exitWith (code : Int64) : Attempt Effect :=
  if h : 0 ≤ code.toInt ∧ code.toInt < 10 then
    .ok (.exit ⟨code.toInt.toNat, by omega⟩)
  else fail (.exitCode code)

def Value.written : Value → Text
  | .string text => Text.decodeEscapes text
  | value => value.text

/-- The character of a text that two values name. -/
def characterOf (text index : Value) : Attempt Char := do
  let text ← orError text.asText
  let index ← orError index.asInt
  orError ((Text.charAt text index).mapError OperationError.fault)

/-- The plan of an action once the operand classes have been checked. -/
def Action.plan (action : Action) (labels : LabelTable) (frames : Frames) (order : SymbolOrder)
    (operands : List Operand) : Attempt Effect :=
  match action with
  | move => do
    let value ← valueAt frames operands 1
    assignFirst operands value
  | createFrame => return .createFrame
  | pushFrame => return .pushFrame
  | popFrame => return .popFrame
  | define => do
    let target ← operandAt operands 0
    let ref ← target.reference
    return .define ref
  | call => do
    let place ← labels.target (← operandAt operands 0)
    return .call place
  | ret => return .ret
  | arithmetic operation => do
    let (left, right) ← valuesOfPair frames order operands
    let a ← orError left.asInt
    let b ← orError right.asInt
    let result ← orError ((operation.apply a b).mapError OperationError.fault)
    assignFirst operands (.int result)
  | relation wanted => do
    let (left, right) ← valuesOfPair frames order operands
    let result ← orError ((left.compares wanted right).mapError OperationError.fault)
    assignFirst operands (.bool result)
  | connective operation => do
    let (left, right) ← valuesOfPair frames order operands
    let a ← orError left.asBool
    let b ← orError right.asBool
    assignFirst operands (.bool (operation.apply a b))
  | negation => do
    let operand ← negated order operands
    let value ← frames.value operand
    let b ← orError value.asBool
    assignFirst operands (.bool !b)
  | intToChar => do
    let value ← valueAt frames operands 1
    let code ← orError value.asInt
    let c ← orError ((Text.ofCodePoint code).mapError OperationError.fault)
    assignFirst operands (.string [c])
  | charToInt => do
    let (text, index) ← valuesOfPair frames .written operands
    let c ← characterOf text index
    assignFirst operands (.int (Int64.ofNat c.toNat))
  | read => do
    let type ← operandAt operands 1
    let kind ← orError (Value.string type.text).asKind
    let target ← operandAt operands 0
    return .read target kind
  | write => do
    let value ← valueAt frames operands 0
    if value.written = [] then fail .missingValue
    else return .write value.written
  | concat => do
    let (left, right) ← valuesOfPair frames .written operands
    let a ← orError left.asText
    let b ← orError right.asText
    assignFirst operands (.string (a ++ b))
  | length => do
    let value ← valueAt frames operands 1
    let text ← orError value.asText
    let n ← integerLength text
    assignFirst operands (.int n)
  | getChar => do
    let (text, index) ← valuesOfPair frames .written operands
    let c ← characterOf text index
    assignFirst operands (.string [c])
  | setChar => do
    let current ← valueAt frames operands 0
    let (index, replacement) ← valuesOfPair frames .written operands
    let text ← orError current.asText
    let index ← orError index.asInt
    let replacement ← orError replacement.asText
    let result ← orError
      ((Text.setCharAt text index replacement).mapError OperationError.fault)
    assignFirst operands (.string result)
  | typeOf => do
    let operand ← operandAt operands 1
    let content ← frames.content operand
    assignFirst operands (.string content.kind.name.toList)
  | pass => return .pass
  | jump => do
    let place ← labels.target (← operandAt operands 0)
    return .jump place
  | jumpIf equal => do
    let place ← labels.target (← operandAt operands 0)
    let (left, right) ← valuesOfPair frames .written operands
    let result ← orError ((left.compares .eq right).mapError OperationError.fault)
    return if result = equal then .jump place else .pass
  | exit => do
    let value ← valueAt frames operands 0
    let code ← orError value.asInt
    exitWith code
  | print => do
    let operand ← operandAt operands 0
    return .print operand
  | inspect => return .inspect
  | intToFloat => do
    let value ← valueAt frames operands 1
    let n ← orError value.asInt
    assignFirst operands (.float (Binary64.ofInt n.toInt))
  | floatToInt => do
    let value ← valueAt frames operands 1
    let x ← orError value.asFloat
    let n ← orError (x.toInteger.mapError OperationError.fault)
    assignFirst operands (.int n)

def Opcode.plan (opcode : Opcode) (labels : LabelTable) (frames : Frames)
    (operands : List Operand) : Attempt Effect := do
  orError (checkOperands opcode operands)
  opcode.action.plan labels frames opcode.symbolOrder operands

end IPPcode24
