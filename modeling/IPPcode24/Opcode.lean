import IPPcode24.Operand

/-!
# Opcodes

The instruction set: the mnemonic of each opcode and the slots of its operands.
Mnemonics are read in any letter case. An opcode whose name ends in the letter of
the stack family has the operands of the opcode without it, and some of these
take the two symbols in reverse.
-/

namespace IPPcode24

inductive Opcode where
  | move
  | createFrame
  | pushFrame
  | popFrame
  | defVar
  | call
  | ret
  | add
  | sub
  | mul
  | idiv
  | lt
  | gt
  | eq
  | and
  | or
  | not
  | int2Char
  | stri2Int
  | read
  | write
  | concat
  | strLen
  | getChar
  | setChar
  | type
  | label
  | jump
  | jumpIfEq
  | jumpIfNeq
  | exit
  | dprint
  | breakpoint
  | adds
  | subs
  | muls
  | idivs
  | lts
  | gts
  | eqs
  | ands
  | ors
  | nots
  | int2Chars
  | stri2Ints
  | jumpIfEqs
  | jumpIfNeqs
  | int2Float
  | float2Int
deriving DecidableEq

namespace Opcode

def all : List Opcode :=
  [move, createFrame, pushFrame, popFrame, defVar, call, ret, add, sub, mul, idiv, lt, gt, eq,
   and, or, not, int2Char, stri2Int, read, write, concat, strLen, getChar, setChar, type, label,
   jump, jumpIfEq, jumpIfNeq, exit, dprint, breakpoint, adds, subs, muls, idivs, lts, gts, eqs,
   ands, ors, nots, int2Chars, stri2Ints, jumpIfEqs, jumpIfNeqs, int2Float, float2Int]

def mnemonic : Opcode → String
  | move => "MOVE"
  | createFrame => "CREATEFRAME"
  | pushFrame => "PUSHFRAME"
  | popFrame => "POPFRAME"
  | defVar => "DEFVAR"
  | call => "CALL"
  | ret => "RETURN"
  | add => "ADD"
  | sub => "SUB"
  | mul => "MUL"
  | idiv => "IDIV"
  | lt => "LT"
  | gt => "GT"
  | eq => "EQ"
  | and => "AND"
  | or => "OR"
  | not => "NOT"
  | int2Char => "INT2CHAR"
  | stri2Int => "STRI2INT"
  | read => "READ"
  | write => "WRITE"
  | concat => "CONCAT"
  | strLen => "STRLEN"
  | getChar => "GETCHAR"
  | setChar => "SETCHAR"
  | type => "TYPE"
  | label => "LABEL"
  | jump => "JUMP"
  | jumpIfEq => "JUMPIFEQ"
  | jumpIfNeq => "JUMPIFNEQ"
  | exit => "EXIT"
  | dprint => "DPRINT"
  | breakpoint => "BREAK"
  | adds => "ADDS"
  | subs => "SUBS"
  | muls => "MULS"
  | idivs => "IDIVS"
  | lts => "LTS"
  | gts => "GTS"
  | eqs => "EQS"
  | ands => "ANDS"
  | ors => "ORS"
  | nots => "NOTS"
  | int2Chars => "INT2CHARS"
  | stri2Ints => "STRI2INTS"
  | jumpIfEqs => "JUMPIFEQS"
  | jumpIfNeqs => "JUMPIFNEQS"
  | int2Float => "INT2FLOAT"
  | float2Int => "FLOAT2INT"

/-- The opcode with a mnemonic, in any letter case. -/
def ofMnemonic? (text : Text) : Option Opcode :=
  all.find? fun opcode => Text.sameLetters opcode.mnemonic.toList text

/-- What the operands of an opcode must be, in order. -/
def signature : Opcode → List Slot
  | move | not | nots | int2Char | int2Chars | strLen | type | int2Float | float2Int =>
    [.var, .symbol]
  | createFrame | pushFrame | popFrame | ret | breakpoint => []
  | defVar => [.var]
  | call | label | jump => [.label]
  | read => [.var, .type]
  | write | exit | dprint => [.symbol]
  | jumpIfEq | jumpIfNeq | jumpIfEqs | jumpIfNeqs => [.label, .symbol, .symbol]
  | add | sub | mul | idiv | lt | gt | eq | and | or | stri2Int | concat | getChar | setChar
  | adds | subs | muls | idivs | lts | gts | eqs | ands | ors | stri2Ints =>
    [.var, .symbol, .symbol]

def isStack : Opcode → Bool
  | adds | subs | muls | idivs | lts | gts | eqs | ands | ors | nots | int2Chars | stri2Ints
  | jumpIfEqs | jumpIfNeqs => true
  | _ => false

end Opcode

/-- Which of two symbols is the left-hand side. -/
inductive SymbolOrder where
  | written
  | reversed
deriving DecidableEq

/-- The left-hand and the right-hand side of two symbols. -/
def SymbolOrder.arrange {α : Type} (order : SymbolOrder) (first second : α) : α × α :=
  match order with
  | .written => (first, second)
  | .reversed => (second, first)

/-- Arithmetic, relations and connectives of the stack family take their symbols
in reverse; jumps and conversions keep the written order. -/
def Opcode.symbolOrder : Opcode → SymbolOrder
  | jumpIfEqs | jumpIfNeqs | int2Chars | stri2Ints => .written
  | opcode => if opcode.isStack then .reversed else .written

end IPPcode24
