import IPPcode24.Literal.Float
import IPPcode24.Literal.Integer
import IPPcode24.Value

/-!
# Literals

The text of a literal stands for a value of its type. Texts stand for themselves:
their escapes are kept until they are written.
-/

namespace IPPcode24.Literal

/-- Exactly the two words for truth values. -/
def parseBool (text : Text) : Option Bool :=
  if text = "true".toList then some true
  else if text = "false".toList then some false
  else none

/-- The value of a literal, if its text fits its type. -/
def decode (kind : Kind) (text : Text) : Except Crash (Option Value) :=
  match kind with
  | .int => (parseInt text).map (·.map Value.int)
  | .bool => .ok ((parseBool text).map Value.bool)
  | .string => .ok (some (.string text))
  | .float => (parseFloat text).map (·.map Value.float)
  | .nil => .ok (if text = "nil".toList then some .nil else none)

end IPPcode24.Literal
