import IPPcode24.Text

/-!
# Escapes

An escape is a backslash with three decimal digits; it stands for the character
with that code. A text is well escaped when every backslash begins an escape,
and an escape is read from left to right, so a decoded backslash is not read
again.
-/

namespace IPPcode24.Text

def decimalDigit (c : Char) : Option Nat :=
  if c.isDigit then some (c.toNat - '0'.toNat) else none

/-- The character of an escape with these three characters after the backslash.
Its code is at most 999, so it is always a character. -/
def escaped (a b c : Char) : Option Char := do
  let x ← decimalDigit a
  let y ← decimalDigit b
  let z ← decimalDigit c
  return Char.ofNat (100 * x + 10 * y + z)

/-- Replaces each escape by its character and keeps everything else. -/
def decodeEscapes : Text → Text
  | '\\' :: a :: b :: c :: rest =>
    match escaped a b c with
    | some character => character :: decodeEscapes rest
    | none => '\\' :: decodeEscapes (a :: b :: c :: rest)
  | c :: rest => c :: decodeEscapes rest
  | [] => []

/-- Whether every backslash begins an escape. -/
def wellEscaped : Text → Bool
  | [] => true
  | '\\' :: a :: b :: c :: rest => (escaped a b c).isSome && wellEscaped rest
  | c :: rest => c ≠ '\\' && wellEscaped rest

end IPPcode24.Text
