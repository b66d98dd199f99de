import IPPcode24.Frames
import IPPcode24.Literal.Decode
import IPPcode24.Opcode
import IPPcode24.Text.Escape

/-!
# Words as operands

How the slot of an opcode reads a word: a variable is a frame tag and a name, a
constant is a type and the text of a literal, a label is a name, and a type is one
of the five type names.
-/

namespace IPPcode24.Source

def beginsName (c : Char) : Bool := c.isAlpha || c ∈ "_-$&%*!?".toList

def continuesName (c : Char) : Bool := beginsName c || c.isDigit

/-- Names are not empty and do not begin with a digit. -/
def isName : Text → Bool
  | [] => false
  | c :: rest => beginsName c && rest.all continuesName

/-- A variable: a frame tag and a name around an at sign. -/
def variableOf? (word : Text) : Option Operand := do
  let (tag, name) ← Text.cut '@' word
  let _ ← FrameTag.ofName? tag
  if isName name then return ⟨.var, word⟩ else none

/-- Whether a text may stand as a constant of a type. Texts must be well escaped;
the others must be literals. -/
def isConstant (kind : Kind) (text : Text) : Except Crash Bool :=
  match kind with
  | .string => .ok (Text.wellEscaped text)
  | kind => (Literal.decode kind text).map Option.isSome

/-- A constant: a type and a literal around an at sign. -/
def constantOf? (word : Text) : Except Crash (Option Operand) :=
  match Text.cut '@' word with
  | none => .ok none
  | some (name, text) =>
    match Kind.ofName? name with
    | none => .ok none
    | some kind =>
      (isConstant kind text).map fun fits =>
        if fits then some ⟨.literal kind, text⟩ else none

/-- The operand that a word is in a slot, if it is one. A variable is tried before
a constant. -/
def operandOf? (slot : Slot) (word : Text) : Except Crash (Option Operand) :=
  match slot with
  | .var => .ok (variableOf? word)
  | .symbol =>
    match variableOf? word with
    | some operand => .ok (some operand)
    | none => constantOf? word
  | .label => .ok (if isName word then some ⟨.label, word⟩ else none)
  | .type => .ok ((Kind.ofName? word).map fun _ => ⟨.type, word⟩)

end IPPcode24.Source
