import IPPcode24.Literal.Marker

/-!
# Integer literals

An optional sign, then hexadecimal digits after `0x`, octal digits after `0o` or
after a leading zero, or decimal digits. Single underscores may stand between
digits. The value must be a 64-bit integer.
-/

namespace IPPcode24.Literal

/-- The base of the digits after the sign, and the digits. -/
def baseAndDigits (body : Text) : Except Crash (Nat × Text) := do
  match ← takeMarker 'x' body with
  | some digits => return (16, digits)
  | none =>
    match ← takeMarker 'o' body with
    | some digits => return (8, digits)
    | none =>
      match body with
      | '0' :: c :: rest => return (8, c :: rest)
      | _ => return (10, body)

def hasDoubleUnderscore : Text → Bool
  | '_' :: '_' :: _ => true
  | _ :: rest => hasDoubleUnderscore rest
  | [] => false

/-- Whether there are digits, and underscores stand singly between them. -/
def wellSeparated (digits : Text) : Bool :=
  digits ≠ [] && digits.head? ≠ some '_' && digits.getLast? ≠ some '_' &&
    !hasDoubleUnderscore digits

/-- The 64-bit integer with a sign and a magnitude, if there is one. -/
def signedInteger (negative : Bool) (magnitude : Nat) : Option Int64 :=
  if negative then
    if magnitude ≤ 0x8000000000000000 then some (Int64.ofInt (-(magnitude : Int))) else none
  else if magnitude < 0x8000000000000000 then some (Int64.ofInt magnitude) else none

def parseInt (text : Text) : Except Crash (Option Int64) := do
  let (negative, body) := takeSign text
  let (base, digits) ← baseAndDigits body
  if wellSeparated digits then
    return do
      let values ← digitValues base (digits.filter (· ≠ '_'))
      signedInteger negative (ofDigits base values)
  else return none

example : parseInt "-0x1_F".toList = .ok (some (-31)) := by decide +kernel
example : parseInt "-9223372036854775808".toList = .ok (some Int64.minValue) := by decide +kernel
example : parseInt "08".toList = .ok none := by decide +kernel
example : parseInt "-5€".toList = .error .dividedCharacter := by decide +kernel

end IPPcode24.Literal
