/-!
# Text

Texts are lists of characters, so that every rule about positions, pieces and
lengths counts characters. Letter case is compared on the ASCII letters alone.
-/

namespace IPPcode24

/-- A sequence of characters. -/
abbrev Text := List Char

namespace Text

/-- The text with its ASCII letters in lower case. -/
def fold (text : Text) : Text := text.map Char.toLower

/-- Equality up to the case of ASCII letters. -/
def sameLetters (a b : Text) : Bool := fold a == fold b

/-- The pieces before and after the first occurrence of a character. -/
def cut (mark : Char) : Text → Option (Text × Text)
  | [] => none
  | c :: rest =>
    if c = mark then some ([], rest)
    else (cut mark rest).map fun (before, after) => (c :: before, after)

def before (mark : Char) (text : Text) : Text := text.takeWhile (· ≠ mark)

/-- The pieces between the occurrences of a character; a text without one is a
single piece. -/
def pieces (mark : Char) : Text → List Text
  | [] => [[]]
  | c :: rest =>
    if c = mark then [] :: pieces mark rest
    else match pieces mark rest with
      | [] => [[c]]
      | piece :: others => (c :: piece) :: others

def lines (text : Text) : List Text := pieces '\n' text

/-- The decimal digits of a number, without leading zeros. -/
def ofNat (n : Nat) : Text := Nat.toDigits 10 n

/-- A minus sign for negative numbers, then the decimal digits. -/
def ofInt (n : Int) : Text := if n < 0 then '-' :: ofNat n.natAbs else ofNat n.natAbs

/-- The text after as many blanks as bring it to the given width. -/
def padLeft (width : Nat) (text : Text) : Text :=
  List.replicate (width - text.length) ' ' ++ text

/-- The text as it stands inside a message. -/
def shown (text : Text) : String := String.ofList text

end Text

end IPPcode24
