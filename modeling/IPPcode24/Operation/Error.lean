import IPPcode24.Failure
import IPPcode24.Value

/-!
# Errors of operations

The ways in which an operation on values has no result.
-/

namespace IPPcode24

/-- Why two values do not compare, or a float is not the integer that is asked
for. -/
inductive Mismatch where
  | unordered (left right : Kind)
  | incomparable (left right : Kind)
  | noInteger (x : Binary64)
  | fractional (x : Binary64)
deriving DecidableEq

def Mismatch.message : Mismatch → String
  | unordered left right => s!"cannot order {left.name} against {right.name}"
  | incomparable left right => s!"cannot compare {left.name} with {right.name}"
  | noInteger x => s!"float {Text.shown x.text} has no integer value"
  | fractional x => s!"float {Text.shown x.text} is not an integer"

/-- Why a character cannot be taken, replaced or made. -/
inductive CharacterError where
  | outOfRange (index : Int64) (length : Nat)
  | emptyReplacement
  | notCodePoint (code : Int64)
deriving DecidableEq

def CharacterError.message : CharacterError → String
  | outOfRange index length =>
    let shown := Text.shown (Text.ofInt index.toInt)
    s!"index {shown} out of range for string of length {length}"
  | emptyReplacement => "empty replacement string"
  | notCodePoint code =>
    let shown := Text.shown (Text.ofInt code.toInt)
    s!"{shown} is not a valid code point"

inductive OperationError where
  | divisionByZero
  | mismatch (reason : Mismatch)
  | character (reason : CharacterError)
  | missing
deriving DecidableEq

def OperationError.message : OperationError → String
  | divisionByZero => "division by zero"
  | mismatch reason => reason.message
  | character reason => reason.message
  | missing => "missing value"

end IPPcode24
