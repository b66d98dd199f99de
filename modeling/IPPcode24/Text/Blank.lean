import IPPcode24.Text

/-!
# Blanks

The characters with the Unicode property White_Space separate words and are
dropped from the ends of an input line.
-/

namespace IPPcode24.Text

/-- The Unicode property White_Space. -/
def isBlank (c : Char) : Bool :=
  let n := c.toNat
  (0x09 ≤ n && n ≤ 0x0D) || n == 0x20 || n == 0x85 || n == 0xA0 || n == 0x1680 ||
    (0x2000 ≤ n && n ≤ 0x200A) || n == 0x2028 || n == 0x2029 || n == 0x202F ||
    n == 0x205F || n == 0x3000

/-- The text without the blanks at its ends. -/
def trim (text : Text) : Text :=
  ((text.dropWhile isBlank).reverse.dropWhile isBlank).reverse

/-- The word that a text begins with, and the words after the first blank;
the word is empty when the text begins with a blank or is empty. -/
def splitWords : Text → Text × List Text
  | [] => ([], [])
  | c :: rest =>
    let (word, others) := splitWords rest
    if isBlank c then ([], if word = [] then others else word :: others)
    else (c :: word, others)

/-- The longest pieces without a blank, in order. -/
def words (text : Text) : List Text :=
  let (word, others) := splitWords text
  if word = [] then others else word :: others

example : words "  DEFVAR\tGF@x  ".toList = ["DEFVAR".toList, "GF@x".toList] := by decide

example : trim " 7　".toList = ['7'] := by decide

end IPPcode24.Text
