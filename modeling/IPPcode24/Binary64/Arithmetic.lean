import IPPcode24.Binary64.Basic

/-!
# Arithmetic of binary64 numbers

Sums and products are the exact results rounded once to nearest. Comparison,
truncation and conversion work on the exact value in units.
-/

namespace IPPcode24.Binary64

def neg (x : Binary64) : Binary64 := { x with negative := !x.negative }

/-- The rounded sum. Opposite infinities have none, and an exact zero is negative
only when both terms are. -/
def add (x y : Binary64) : Binary64 :=
  if x.isNaN || y.isNaN then nan
  else if x.isInfinite then
    if y.isInfinite && x.negative != y.negative then nan else x
  else if y.isInfinite then y
  else
    let sum := x.signedUnits + y.signedUnits
    if sum = 0 then zero (x.negative && y.negative)
    else round (sum < 0) sum.natAbs 1

/-- The rounded product. Zero times infinity has none. -/
def mul (x y : Binary64) : Binary64 :=
  let negative := x.negative != y.negative
  if x.isNaN || y.isNaN then nan
  else if x.isInfinite || y.isInfinite then
    if x.units = 0 || y.units = 0 then nan else infinity negative
  else round negative (x.units * y.units) unitsOfOne

def ofInt (n : Int) : Binary64 := round (n < 0) (n.natAbs * unitsOfOne) 1

/-- Two to a power, when the power and its reciprocal are finite; above that
range infinity and below it zero. -/
def powerOfTwo (e : Int) : Binary64 :=
  if e < -1023 then zero false
  else if 1023 < e then infinity false
  else round false (Nat.pow 2 (e + 1074).toNat) 1

/-- How two numbers compare; a number that is not a number compares with none.
The two zeros are equal. -/
def order? (x y : Binary64) : Option Ordering :=
  if x.isNaN || y.isNaN then none else some (compare x.signedUnits y.signedUnits)

/-- The value without its fractional part. -/
def truncated (x : Binary64) : Int :=
  if x.negative then -(x.units / unitsOfOne : Nat) else (x.units / unitsOfOne : Nat)

/-- The value without its fractional part, when the number is finite and not
outside the range of 64-bit integers. -/
def toInt? (x : Binary64) : Option Int64 :=
  let limit : Int := 0x8000000000000000 * unitsOfOne
  if x.isFinite && -limit ≤ x.signedUnits && x.signedUnits < limit then
    some (Int64.ofInt x.truncated)
  else none

/-- Whether a finite number has no fractional part. -/
def isWhole (x : Binary64) : Bool := x.isFinite && x.units % unitsOfOne = 0

/-- The value as an integer, when it has no fractional part and is in range. -/
def integral? (x : Binary64) : Option Int64 := if x.isWhole then x.toInt? else none

example : add (ofInt 1) (ofInt 2) = ofInt 3 := by decide +kernel
example : (ofInt (-7)).toInt? = some (-7) := by decide +kernel
example : mul (zero false) (powerOfTwo 1024) = nan := by decide +kernel

end IPPcode24.Binary64
