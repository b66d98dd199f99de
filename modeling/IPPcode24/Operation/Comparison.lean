import IPPcode24.Operation.Arithmetic

/-!
# Comparison

Two values of one type compare by size, texts by their first differing
character. A float on the right of an integer must stand for an integer itself; a
float on the left loses its fraction. Nil is equal to nil alone and has no order.
-/

namespace IPPcode24

inductive Relation where
  | lt
  | gt
  | eq
deriving DecidableEq

/-- Whether the relation holds between values in this order; no relation holds
between values without one. -/
def Relation.holds : Relation → Option Ordering → Bool
  | lt, some .lt => true
  | gt, some .gt => true
  | eq, some .eq => true
  | _, _ => false

/-- The order of texts by their first differing character; a text comes after its
own beginnings. -/
def Text.order : Text → Text → Ordering
  | [], [] => .eq
  | [], _ :: _ => .lt
  | _ :: _, [] => .gt
  | a :: as, b :: bs => (compare a.toNat b.toNat).then (order as bs)

namespace Value

/-- How two values that are not nil compare. -/
def order? (left right : Value) : Except OperationError (Option Ordering) :=
  match left, right with
  | int a, int b => .ok (some (compare a.toInt b.toInt))
  | bool a, bool b => .ok (some (compare a.toNat b.toNat))
  | string a, string b => .ok (some (Text.order a b))
  | float a, float b => .ok (a.order? b)
  | int a, float b => do
    let b ← b.asInteger
    return some (compare a.toInt b.toInt)
  | float a, int b => do
    let a ← a.toInteger
    return some (compare a.toInt b.toInt)
  | left, right => .error (.mismatch (.incomparable left.kind right.kind))

def compares (relation : Relation) (left right : Value) : Except OperationError Bool :=
  if left = uninitialized || right = uninitialized then .error .missing
  else if left.isNil || right.isNil then
    match relation with
    | .eq => .ok (left.isNil && right.isNil)
    | _ => .error (.mismatch (.unordered left.kind right.kind))
  else (left.order? right).map relation.holds

end Value

end IPPcode24
