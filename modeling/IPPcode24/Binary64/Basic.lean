/-!
# Binary64 numbers

A number of the IEEE 754 format binary64 is given by its three fields. Every
finite magnitude is a whole multiple of the least positive one, so the exact
value of a number is an integer count of such units, and rounding is a division
of natural numbers. A fraction has 52 bits, so there are `0x10000000000000` of them.
-/

namespace IPPcode24

/-- A binary64 number by its fields. The largest exponent field marks infinities
and, with a nonzero fraction, numbers that are not a number. -/
structure Binary64 where
  negative : Bool
  exponent : Fin 2048
  fraction : Fin 0x10000000000000
deriving DecidableEq

namespace Binary64

/-- The number whose 64 bits, most significant first, are the sign, the exponent
field and the fraction. -/
def ofBits (bits : Nat) : Binary64 :=
  ⟨bits / 0x8000000000000000 % 2 == 1,
    ⟨bits / 0x10000000000000 % 2048, Nat.mod_lt _ (by decide)⟩,
    ⟨bits % 0x10000000000000, Nat.mod_lt _ (by decide)⟩⟩

def isFinite (x : Binary64) : Bool := x.exponent.val ≠ 2047

def isNaN (x : Binary64) : Bool := x.exponent.val = 2047 && x.fraction.val ≠ 0

def isInfinite (x : Binary64) : Bool := x.exponent.val = 2047 && x.fraction.val = 0

/-- The bits before the binary scale: the fraction, with a leading one unless
the exponent field is zero. -/
def significand (x : Binary64) : Nat :=
  if x.exponent.val = 0 then x.fraction.val else 0x10000000000000 + x.fraction.val

/-- The exponent of two that scales the significand, counted from the least
positive number. The exponent fields zero and one share their scale. -/
def scale (x : Binary64) : Nat := x.exponent.val - 1

/-- The magnitude as a multiple of `2 ^ (-1074)`. An infinity counts as the
magnitude that would follow the largest finite one. -/
def units (x : Binary64) : Nat := x.significand * Nat.pow 2 x.scale

def signedUnits (x : Binary64) : Int := if x.negative then -x.units else x.units

/-- The number of units in one. -/
def unitsOfOne : Nat := Nat.pow 2 1074

def infinity (negative : Bool) : Binary64 := ⟨negative, 2047, 0⟩

def zero (negative : Bool) : Binary64 := ⟨negative, 0, 0⟩

/-- The number that stands for every undefined result. -/
def nan : Binary64 := ⟨false, 2047, 0x8000000000000⟩

/-- The nearest whole quotient; halfway between two, the even one. -/
def nearestQuotient (n d : Nat) : Nat :=
  let quotient := n / d
  let rest := 2 * (n % d)
  if rest < d then quotient
  else if d < rest then quotient + 1
  else quotient + quotient % 2

/-- The number whose exponent field and fraction, read as one number, are the
given rank; ranks past the finite numbers give an infinity. Magnitudes grow with
the rank. -/
def ofRank (negative : Bool) (rank : Nat) : Binary64 :=
  if h : rank < 0x7FF0000000000000 then
    ⟨negative, ⟨rank / 0x10000000000000, by omega⟩,
      ⟨rank % 0x10000000000000, Nat.mod_lt _ (by decide)⟩⟩
  else infinity negative

/-- The binary64 number nearest to `n / d` units; halfway between two, the one
with an even significand. -/
def round (negative : Bool) (n d : Nat) : Binary64 :=
  let spacing := Nat.log2 (n / d) - 52
  ofRank negative (spacing * 0x10000000000000 + nearestQuotient n (d * Nat.pow 2 spacing))

example : round false 1 2 = zero false := by decide
example : round false 3 2 = ⟨false, 0, 2⟩ := by decide

end Binary64

end IPPcode24
