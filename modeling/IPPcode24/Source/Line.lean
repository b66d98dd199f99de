import IPPcode24.Text.Blank

/-!
# Lines of source text

A line is cut at its first number sign and split into words at blanks. Lines
without words do not matter.
-/

namespace IPPcode24.Source

/-- The words of a line before its comment. -/
def wordsOfLine (line : Text) : List Text := Text.words (Text.before '#' line)

/-- Whether a word is the header, in any letter case. -/
def isHeader (word : Text) : Bool := Text.sameLetters word ".IPPcode24".toList

/-- The lines of a text that have words, each with its number, counted from the
given one. -/
def numbered (number : Nat) : List Text → List (Nat × List Text)
  | [] => []
  | line :: rest =>
    match wordsOfLine line with
    | [] => numbered (number + 1) rest
    | words => (number, words) :: numbered (number + 1) rest

/-- The lines of a source text that have words, with their numbers from one on. -/
def wordedLines (text : Text) : List (Nat × List Text) := numbered 1 (Text.lines text)

end IPPcode24.Source
