import IPPcode24.Value

/-!
# Operands

An operand is the class it was declared with and the text that followed it. In
source text a literal carries the name of its class, and the other operands
stand bare. A slot of an instruction accepts some of the classes.
-/

namespace IPPcode24

/-- The class an operand is declared with. -/
inductive OperandClass where
  | var
  | label
  | type
  | literal (kind : Kind)
deriving DecidableEq

namespace OperandClass

def all : List OperandClass := [var, label, type] ++ Kind.all.map literal

def name : OperandClass → String
  | var => "var"
  | label => "label"
  | type => "type"
  | literal kind => kind.name

def ofName? (name : Text) : Option OperandClass :=
  all.find? fun operandClass => operandClass.name.toList == name

def isLiteral : OperandClass → Bool
  | literal _ => true
  | _ => false

/-- Whether operands of the class have a value. -/
def isSymbol (operandClass : OperandClass) : Bool :=
  operandClass = var || operandClass.isLiteral

end OperandClass

/-- What an operand position of an opcode accepts. -/
inductive Slot where
  | var
  | symbol
  | label
  | type
deriving DecidableEq

namespace Slot

def all : List Slot := [var, symbol, label, type]

def name : Slot → String
  | var => "var"
  | symbol => "symb"
  | label => "label"
  | type => "type"

def accepts : Slot → OperandClass → Bool
  | var, operandClass => operandClass = .var
  | symbol, operandClass => operandClass.isSymbol
  | label, operandClass => operandClass = .label
  | type, operandClass => operandClass = .type

end Slot

structure Operand where
  operandClass : OperandClass
  text : Text
deriving DecidableEq

/-- The operand as it is written in source text. -/
def Operand.source (operand : Operand) : Text :=
  match operand.operandClass with
  | .literal kind => kind.name.toList ++ '@' :: operand.text
  | _ => operand.text

end IPPcode24
