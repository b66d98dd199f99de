import IPPcode24.Failure
import IPPcode24.Text

/-!
# Signs and markers of numbers

A number may begin with one sign. After it comes an optional marker of two
characters, a zero and a letter, that names the base of its digits. The marker is
looked for in the first two bytes, which must not end inside a character.
-/

namespace IPPcode24.Literal

/-- Whether a number is negative, and what follows its sign. -/
def takeSign : Text → Bool × Text
  | '-' :: rest => (true, rest)
  | '+' :: rest => (false, rest)
  | text => (false, text)

/-- Whether the second byte of a text is not the last byte of a character, while
a second byte exists. -/
def dividesCharacter : Text → Bool
  | [] => false
  | a :: rest =>
    if a.utf8Size = 1 then
      match rest with
      | [] => false
      | b :: _ => b.utf8Size ≠ 1
    else a.utf8Size ≠ 2

/-- What follows a zero and the given letter in either case, if the text begins
with them. -/
def takeMarker (letter : Char) (text : Text) : Except Crash (Option Text) :=
  if dividesCharacter text then .error .dividedCharacter
  else match text with
    | '0' :: c :: rest => .ok (if c.toLower = letter then some rest else none)
    | _ => .ok none

/-- The value of a digit in bases up to sixteen. -/
def digitValue (base : Nat) (c : Char) : Option Nat :=
  let value? :=
    if '0' ≤ c && c ≤ '9' then some (c.toNat - '0'.toNat)
    else if 'a' ≤ c && c ≤ 'f' then some (c.toNat - 'a'.toNat + 10)
    else if 'A' ≤ c && c ≤ 'F' then some (c.toNat - 'A'.toNat + 10)
    else none
  value?.filter (· < base)

def digitValues (base : Nat) : Text → Option (List Nat)
  | [] => some []
  | c :: rest => do
    let value ← digitValue base c
    let values ← digitValues base rest
    return value :: values

/-- The number with these digits, most significant first. -/
def ofDigits (base : Nat) (digits : List Nat) : Nat :=
  digits.foldl (fun n digit => n * base + digit) 0

/-- What follows the sign of a number does not depend on the sign's presence when
there is none. -/
theorem takeSign_of_head_ne {c : Char} {rest : Text} (minus : c ≠ '-') (plus : c ≠ '+') :
    takeSign (c :: rest) = (false, c :: rest) := by
  unfold takeSign
  split <;> simp_all

end IPPcode24.Literal
