import IPPcode24.Operation.Error
import IPPcode24.Binary64.Arithmetic

/-!
# Arithmetic and logic

Integers have 64 bits and wrap around. Division drops the fraction. A float
stands for an integer when it has no fractional part, and is turned into one by
dropping it.
-/

namespace IPPcode24

inductive Arithmetic where
  | add
  | sub
  | mul
  | idiv
deriving DecidableEq

/-- The result of an integer operation; only division by zero has none. -/
def Arithmetic.apply (operation : Arithmetic) (left right : Int64) :
    Except OperationError Int64 :=
  match operation with
  | add => .ok (left + right)
  | sub => .ok (left - right)
  | mul => .ok (left * right)
  | idiv => if right = 0 then .error .divisionByZero else .ok (left / right)

inductive Connective where
  | and
  | or
deriving DecidableEq

def Connective.apply : Connective → Bool → Bool → Bool
  | and, left, right => left && right
  | or, left, right => left || right

namespace Binary64

/-- The integer part of a float, if it is a 64-bit integer. -/
def toInteger (x : Binary64) : Except OperationError Int64 :=
  match x.toInt? with
  | some n => .ok n
  | none => .error (.mismatch (.noInteger x))

/-- The integer that a float stands for. -/
def asInteger (x : Binary64) : Except OperationError Int64 :=
  match x.integral? with
  | some n => .ok n
  | none => .error (.mismatch (.fractional x))

end Binary64

example : Arithmetic.idiv.apply (-7) 2 = .ok (-3) := by decide
example : Arithmetic.idiv.apply Int64.minValue (-1) = .ok Int64.minValue := by decide

end IPPcode24
