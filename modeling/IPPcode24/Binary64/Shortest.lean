import IPPcode24.Binary64.Basic
import IPPcode24.Text

/-!
# Shortest decimal text

A finite number is written with the fewest decimal digits that read back as the
same number. The candidates with a given count of digits are the two neighbours
of the value on that decimal grid; the nearer one is taken, and of two equally
near ones the larger. All comparisons are between natural numbers.
-/

namespace IPPcode24.Binary64

/-- The decimal number `digits * 10 ^ exponent`. -/
structure Decimal where
  digits : Nat
  exponent : Int
deriving DecidableEq

/-- The reals that round to a finite number, as bounds in quarters of a unit; the
bounds themselves round to it when its significand is even. -/
structure RoundingRange where
  lower : Nat
  upper : Nat
  closed : Bool

/-- Half the distance to each neighbour is on both sides, except below a power of
two, where the smaller neighbour is nearer. -/
def roundingRange (x : Binary64) : RoundingRange where
  lower := 4 * x.units - Nat.pow 2 x.scale *
    (if x.fraction.val = 0 && 1 < x.exponent.val then 1 else 2)
  upper := 4 * x.units + Nat.pow 2 x.scale * 2
  closed := x.significand % 2 = 0

/-- Whether the range, stretched by a factor, holds a point. -/
def RoundingRange.holds (range : RoundingRange) (factor point : Nat) : Bool :=
  if range.closed then range.lower * factor ≤ point && point ≤ range.upper * factor
  else range.lower * factor < point && point < range.upper * factor

/-- The number of decimal digits of a natural number, less one. -/
def decimalOrder (n : Nat) : Nat := (Text.ofNat n).length - 1

/-- Finer than every decimal grid that is tried. -/
def finestGrid : Nat := Nat.pow 10 340

/-- The decimal with the given count of digits that reads back as the number, if
its value has a neighbour on that grid within its rounding range. -/
def decimalWith? (x : Binary64) (count : Nat) : Option Decimal :=
  let order := decimalOrder (x.units * Nat.pow 10 324 / unitsOfOne)
  let grid := 4 * unitsOfOne * Nat.pow 10 (order + 17 - count)
  let value := 4 * x.units * finestGrid
  let below := value / grid
  let exponent : Int := order - 323 - count
  let chosen : Option Nat :=
    match x.roundingRange.holds finestGrid (below * grid),
        x.roundingRange.holds finestGrid ((below + 1) * grid) with
    | true, true => some (if 2 * (value % grid) < grid then below else below + 1)
    | true, false => some below
    | false, true => some (below + 1)
    | false, false => none
  chosen.map fun digits =>
    if digits = Nat.pow 10 count then ⟨1, exponent + count⟩ else ⟨digits, exponent⟩

/-- The decimal with the fewest digits that reads back as the number. Seventeen
digits always suffice. -/
def shortest (x : Binary64) : Decimal :=
  ((List.range 17).findSome? fun i => x.decimalWith? (i + 1)).getD ⟨0, 0⟩

/-- A decimal number written without an exponent. -/
def Decimal.text (d : Decimal) : Text :=
  if 0 ≤ d.exponent then Text.ofNat (d.digits * Nat.pow 10 d.exponent.toNat)
  else
    let places := d.exponent.natAbs
    let digits := Text.ofNat d.digits
    let padded := List.replicate (places + 1 - digits.length) '0' ++ digits
    padded.take (padded.length - places) ++ '.' :: padded.drop (padded.length - places)

/-- The text of a number. Whole numbers have no point, and zero keeps its sign. -/
def text (x : Binary64) : Text :=
  if x.isNaN then "NaN".toList
  else
    let magnitude :=
      if x.isInfinite then "inf".toList
      else if x.units = 0 then "0".toList
      else x.shortest.text
    if x.negative then '-' :: magnitude else magnitude

example : text (ofBits 0x3FF8000000000000) = "1.5".toList := by decide +kernel
example : text (ofBits 0x3E7AD7F29ABCAF48) = "0.0000001".toList := by decide +kernel
example : text (ofBits 0x3E60000000000000) = "0.000000029802322387695313".toList := by
  decide +kernel

end IPPcode24.Binary64
