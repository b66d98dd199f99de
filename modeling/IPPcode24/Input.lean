import IPPcode24.Literal.Float
import IPPcode24.Literal.Integer
import IPPcode24.Text.Blank
import IPPcode24.Text.Utf8
import IPPcode24.Value

/-!
# Input

The input is a source of bytes that gives values of a requested type. Each request
takes one line, whatever the type and whether or not the line fits it.
-/

namespace IPPcode24

def floatOfLine (line : Text) : Except Crash (Option Binary64) :=
  Literal.parseFloat (Text.trim line)

/-- Bytes that are read line by line. -/
structure Input where
  bytes : List UInt8
deriving DecidableEq

namespace Input

/-- The bytes of the first line, with its line feed, and the bytes after it. -/
def splitLine : List UInt8 → List UInt8 × List UInt8
  | [] => ([], [])
  | byte :: rest =>
    if byte = 10 then ([byte], rest)
    else
      let (line, others) := splitLine rest
      (byte :: line, others)

/-- The text without a line feed at its end and without one carriage return
before that. -/
def dropLineEnd (line : Text) : Text :=
  match line.reverse with
  | '\n' :: '\r' :: rest => rest.reverse
  | '\n' :: rest => rest.reverse
  | _ => line

/-- The next line and the input after it. There is no line at the end of the
input, nor for bytes that are not UTF-8, which are consumed all the same. -/
def nextLine (input : Input) : Option Text × Input :=
  let (line, rest) := splitLine input.bytes
  if line = [] then (none, ⟨rest⟩)
  else ((Text.ofUtf8? line).map dropLineEnd, ⟨rest⟩)

/-- The value of a type that a line stands for, if there is one. No line stands
for nil. -/
def valueOfLine (kind : Kind) (line : Text) : Except Crash (Option Value) :=
  match kind with
  | .int => (Literal.parseInt (Text.trim line)).map (·.map Value.int)
  | .bool => .ok (some (.bool (Text.sameLetters (Text.trim line) "true".toList)))
  | .string => .ok (some (.string line))
  | .float => (floatOfLine line).map (·.map Value.float)
  | .nil => .ok none

/-- A value of the requested type, if the next line stands for one, and the input
after that line. A request for nil consumes nothing. -/
def read (kind : Kind) (input : Input) : Except Crash (Option Value) × Input :=
  match kind with
  | .nil => (.ok none, input)
  | kind =>
    match input.nextLine with
    | (none, rest) => (.ok none, rest)
    | (some line, rest) => (valueOfLine kind line, rest)

example : read .int ⟨"0x1F\r\nb".toList.map fun c => c.val.toUInt8⟩ =
    (.ok (some (.int 31)), ⟨[98]⟩) := by decide +kernel

end Input

end IPPcode24
