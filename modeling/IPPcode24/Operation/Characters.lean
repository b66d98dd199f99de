import IPPcode24.Operation.Error

/-!
# Characters of texts

Positions count characters from zero. Integers outside the positions of a text or
outside the code points of characters are refused.
-/

namespace IPPcode24.Text

/-- The natural number that an integer is, if it is not negative. -/
def position? (index : Int64) : Option Nat :=
  if 0 ≤ index.toInt then some index.toInt.toNat else none

def charAt (text : Text) (index : Int64) : Except OperationError Char :=
  match (position? index).bind (text[·]?) with
  | some c => .ok c
  | none => .error (.character (.outOfRange index text.length))

/-- The text with the character at a position replaced by the first character of
another text. -/
def setCharAt (text : Text) (index : Int64) (replacement : Text) :
    Except OperationError Text :=
  match replacement with
  | [] => .error (.character .emptyReplacement)
  | c :: _ =>
    match (position? index).filter (· < text.length) with
    | some position => .ok (text.set position c)
    | none => .error (.character (.outOfRange index text.length))

def ofCodePoint (code : Int64) : Except OperationError Char :=
  match (position? code).filter (·.isValidChar) with
  | some n => .ok (Char.ofNat n)
  | none => .error (.character (.notCodePoint code))

end IPPcode24.Text
