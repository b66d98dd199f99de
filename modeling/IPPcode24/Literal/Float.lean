import IPPcode24.Binary64.Arithmetic
import IPPcode24.Literal.Marker

/-!
# Float literals

An optional sign, then a decimal number with an optional power of ten, or after
`0x` a hexadecimal number with an optional power of two. A decimal number gives
the nearest binary64 number. A hexadecimal one is summed digit by digit in
binary64 arithmetic and then multiplied by the power of two.
-/

namespace IPPcode24.Literal

open Binary64

/-- An optional sign and at least one decimal digit. -/
def signedDecimal (text : Text) : Option Int := do
  let (negative, digits) := takeSign text
  let values ← digitValues 10 digits
  if values = [] then none
  else
    let magnitude : Int := ofDigits 10 values
    return if negative then -magnitude else magnitude

/-- The pieces before and after the first exponent letter, if there is one. -/
def cutExponent (isLetter : Char → Bool) : Text → Text × Option Text
  | [] => ([], none)
  | c :: rest =>
    if isLetter c then ([], some rest)
    else
      let (mantissa, exponent) := cutExponent isLetter rest
      (c :: mantissa, exponent)

def splitPoint (mantissa : Text) : Text × Text :=
  (Text.cut '.' mantissa).getD (mantissa, [])

/-- The binary64 number nearest to `digits * 10 ^ exponent`. Numbers of more than
400 places before the point are past the range, and numbers that begin more than
400 places after it are nearer to zero than to any other. -/
def nearestDecimal (digits : Nat) (exponent : Int) : Binary64 :=
  let places : Int := exponent + (Text.ofNat digits).length
  if digits = 0 || places < -400 then zero false
  else if 400 < places then infinity false
  else if 0 ≤ exponent then round false (digits * Nat.pow 10 exponent.toNat * unitsOfOne) 1
  else round false (digits * unitsOfOne) (Nat.pow 10 exponent.natAbs)

def parseDecimal (body : Text) : Option Binary64 := do
  let (mantissa, exponent?) := cutExponent (fun c => c = 'e' || c = 'E') body
  let (whole, fraction) := splitPoint mantissa
  let digits ← digitValues 10 (whole ++ fraction)
  let exponent ← match exponent? with
    | some text => signedDecimal text
    | none => some 0
  if digits = [] then none
  else return nearestDecimal (ofDigits 10 digits) (exponent - fraction.length)

/-- The sum of the digits before the point, each weighted by its place. -/
def wholePart (digits : List Nat) : Binary64 :=
  digits.foldl (fun value (digit : Nat) => add (mul value (ofInt 16)) (ofInt digit)) (zero false)

/-- The digits after the point added to a number, the first one in sixteenths.
Every partial sum and every weight is a binary64 number. -/
def addFraction (value weight : Binary64) : List Nat → Binary64
  | [] => value
  | digit :: rest =>
    addFraction (add value (mul (ofInt digit) weight)) (mul weight (powerOfTwo (-4))) rest

/-- The value of what follows the marker of a hexadecimal number. The power of
two is a 32-bit integer. -/
def parseHexadecimal (body : Text) : Option Binary64 := do
  let (mantissa, exponent?) := cutExponent (fun c => c = 'p' || c = 'P') body
  let exponent ← match exponent? with
    | some text => signedDecimal text
    | none => some 0
  if exponent < -0x80000000 || 0x80000000 ≤ exponent then none
  else
    let (whole, fraction) := splitPoint mantissa
    if whole = [] && fraction = [] then none
    else
      let wholeDigits ← digitValues 16 whole
      let fractionDigits ← digitValues 16 fraction
      return mul (addFraction (wholePart wholeDigits) (powerOfTwo (-4)) fractionDigits)
        (powerOfTwo exponent)

def parseFloat (text : Text) : Except Crash (Option Binary64) := do
  let (negative, body) := takeSign text
  let magnitude? := match ← takeMarker 'x' body with
    | some digits => parseHexadecimal digits
    | none => parseDecimal body
  return magnitude?.map fun magnitude => if negative then magnitude.neg else magnitude

example : parseFloat "0x1.8p+1".toList = .ok (some (ofInt 3)) := by decide +kernel
example : parseFloat "-2e3".toList = .ok (some (ofInt (-2000))) := by decide +kernel
example : parseFloat "0x0p1024".toList = .ok (some nan) := by decide +kernel
example : parseFloat "inf".toList = .ok none := by decide +kernel

end IPPcode24.Literal
