import IPPcode24.Input
import IPPcode24.Literal.Decode
import IPPcode24.Proofs.Attempt
import IPPcode24.Source.Word

/-!
# Divided characters

The first two bytes after the sign of a number are compared with the markers of the
bases. If the text goes on and they end inside a character, the reading crashes; for
every other text it gives a number or none. The same texts make literals, constants
and input lines of the two numeric types crash, and nothing else does.
-/

namespace IPPcode24

namespace Text

@[simp] theorem byteCount_nil : byteCount [] = 0 := rfl

@[simp] theorem byteCount_cons (c : Char) (rest : Text) :
    byteCount (c :: rest) = c.utf8Size + byteCount rest := rfl

end Text

namespace Literal

/-- What follows the sign has at least two bytes, and the second of them is not the
last byte of a character. -/
def Divided (text : Text) : Prop :=
  2 ≤ Text.byteCount (takeSign text).2 ∧
    ∀ before after, (takeSign text).2 = before ++ after → Text.byteCount before ≠ 2

theorem dividesCharacter_singleton {a : Char} :
    dividesCharacter [a] = true ↔ a.utf8Size ≠ 1 ∧ a.utf8Size ≠ 2 := by
  by_cases one : a.utf8Size = 1 <;> simp [dividesCharacter, one]

theorem dividesCharacter_cons_cons {a b : Char} {rest : Text} :
    dividesCharacter (a :: b :: rest) = true ↔
      a.utf8Size ≠ 2 ∧ (a.utf8Size = 1 → b.utf8Size ≠ 1) := by
  by_cases one : a.utf8Size = 1 <;> simp [dividesCharacter, one]

/-- Looking at the first two characters is enough to tell whether the second byte ends
one. -/
theorem dividesCharacter_iff {body : Text} :
    dividesCharacter body = true ↔
      2 ≤ Text.byteCount body ∧
        ∀ before after, body = before ++ after → Text.byteCount before ≠ 2 := by
  -- every character has a byte, so a front of three characters is already too long
  rcases body with _ | ⟨a, _ | ⟨b, rest⟩⟩
  · simp [dividesCharacter]
  · have apos := a.utf8Size_pos
    rw [dividesCharacter_singleton]
    constructor
    · rintro ⟨notOne, notTwo⟩
      refine ⟨by simp only [Text.byteCount_cons]; omega, ?_⟩
      rintro before after split
      rcases before with _ | ⟨c, before⟩
      · simp
      · obtain ⟨rfl, rest⟩ := List.cons.inj split
        simp only [Text.byteCount_cons]
        omega
    · rintro ⟨long, undivided⟩
      have notTwo := undivided [a] [] rfl
      simp only [Text.byteCount_cons, Text.byteCount_nil] at long notTwo
      omega
  · have apos := a.utf8Size_pos
    have bpos := b.utf8Size_pos
    rw [dividesCharacter_cons_cons]
    constructor
    · rintro ⟨notTwo, notOne⟩
      refine ⟨by simp only [Text.byteCount_cons]; omega, ?_⟩
      rintro before after split
      rcases before with _ | ⟨c, _ | ⟨d, before⟩⟩
      · simp
      · obtain ⟨rfl, _⟩ := List.cons.inj split
        simp only [Text.byteCount_cons, Text.byteCount_nil]
        omega
      · obtain ⟨rfl, others⟩ := List.cons.inj split
        obtain ⟨rfl, _⟩ := List.cons.inj others
        simp only [Text.byteCount_cons]
        omega
    · rintro ⟨_, undivided⟩
      have first := undivided [a] (b :: rest) rfl
      have second := undivided [a, b] rest rfl
      simp only [Text.byteCount_cons, Text.byteCount_nil] at first second
      omega

instance (text : Text) : Decidable (Divided text) :=
  decidable_of_iff (dividesCharacter (takeSign text).2 = true) dividesCharacter_iff

theorem takeMarker_eq_error {letter : Char} {body : Text} {crash : Crash} :
    takeMarker letter body = .error crash ↔
      crash = .dividedCharacter ∧ dividesCharacter body = true := by
  unfold takeMarker
  split
  · rename_i divides
    simp [divides, eq_comm]
  · rename_i whole
    simp only [whole]
    split <;> simp

theorem baseAndDigits_eq_error {body : Text} {crash : Crash} :
    baseAndDigits body = .error crash ↔
      crash = .dividedCharacter ∧ dividesCharacter body = true := by
  unfold baseAndDigits
  rw [Chain.bind_eq_error, takeMarker_eq_error]
  refine or_iff_left ?_
  rintro ⟨digits?, first, failed⟩
  cases digits? with
  | some digits => cases failed
  | none =>
    rcases Chain.bind_eq_error.mp failed with failed | ⟨digits?, _, failed⟩
    · obtain ⟨_, divides⟩ := takeMarker_eq_error.mp failed
      unfold takeMarker at first
      rw [if_pos divides] at first
      cases first
    · cases digits? with
      | some digits => cases failed
      | none =>
        simp only at failed
        split at failed <;> cases failed

/-- Reading an integer crashes on the divided texts alone. -/
theorem parseInt_eq_error {text : Text} {crash : Crash} :
    parseInt text = .error crash ↔ crash = .dividedCharacter ∧ Divided text := by
  have body := @dividesCharacter_iff (takeSign text).2
  rw [Divided, ← body, parseInt, Chain.bind_eq_error, baseAndDigits_eq_error]
  refine or_iff_left ?_
  rintro ⟨⟨base, digits⟩, _, failed⟩
  simp only at failed
  split at failed <;> cases failed

/-- Reading a float crashes on the same texts. -/
theorem parseFloat_eq_error {text : Text} {crash : Crash} :
    parseFloat text = .error crash ↔ crash = .dividedCharacter ∧ Divided text := by
  have body := @dividesCharacter_iff (takeSign text).2
  rw [Divided, ← body, parseFloat, Chain.bind_eq_error, takeMarker_eq_error]
  refine or_iff_left ?_
  rintro ⟨digits?, _, failed⟩
  cases failed

/-- The types whose texts are numbers. -/
def IsNumeric (kind : Kind) : Prop := kind = .int ∨ kind = .float

theorem decode_eq_error {kind : Kind} {text : Text} {crash : Crash} :
    decode kind text = .error crash ↔
      crash = .dividedCharacter ∧ IsNumeric kind ∧ Divided text := by
  cases kind with
  | int => simp [decode, Chain.map_eq_error, parseInt_eq_error, IsNumeric]
  | float => simp [decode, Chain.map_eq_error, parseFloat_eq_error, IsNumeric]
  | bool | string | nil => simp [decode, IsNumeric]

end Literal

namespace Source

theorem isConstant_of_ne {kind : Kind} (other : kind ≠ .string) (text : Text) :
    isConstant kind text = (Literal.decode kind text).map Option.isSome := by
  cases kind with
  | string => exact absurd rfl other
  | int | bool | float | nil => rfl

theorem isConstant_eq_error {kind : Kind} {text : Text} {crash : Crash} :
    isConstant kind text = .error crash ↔
      crash = .dividedCharacter ∧ Literal.IsNumeric kind ∧ Literal.Divided text := by
  by_cases other : kind = .string
  · simp [other, isConstant, Literal.IsNumeric]
  · rw [← Literal.decode_eq_error, isConstant_of_ne other, Chain.map_eq_error]

end Source

namespace Input

theorem valueOfLine_eq_error {kind : Kind} {line : Text} {crash : Crash} :
    valueOfLine kind line = .error crash ↔
      crash = .dividedCharacter ∧ Literal.IsNumeric kind ∧ Literal.Divided (Text.trim line) := by
  cases kind with
  | int => simp [valueOfLine, Chain.map_eq_error, Literal.parseInt_eq_error, Literal.IsNumeric]
  | float =>
    simp [valueOfLine, floatOfLine, Chain.map_eq_error, Literal.parseFloat_eq_error,
      Literal.IsNumeric]
  | bool | string | nil => simp [valueOfLine, Literal.IsNumeric]

/-- A read crashes when a number is asked for and the next line, without the blanks at
its ends, is divided. -/
theorem read_eq_error {kind : Kind} {input : Input} {crash : Crash} :
    (input.read kind).1 = .error crash ↔
      crash = .dividedCharacter ∧ Literal.IsNumeric kind ∧
        ∃ line, input.nextLine.1 = some line ∧ Literal.Divided (Text.trim line) := by
  have asked (other : kind ≠ .nil) : (input.read kind).1 = .error crash ↔
      ∃ line, input.nextLine.1 = some line ∧ valueOfLine kind line = .error crash := by
    cases kind with
    | nil => exact absurd rfl other
    | int | bool | string | float =>
      cases given : input.nextLine with
      | mk line? rest => cases line? <;> simp [read, given]
  by_cases other : kind = .nil
  · simp [other, read, Literal.IsNumeric]
  · rw [asked other]
    simp only [valueOfLine_eq_error]
    constructor
    · rintro ⟨line, given, same, numeric, divided⟩
      exact ⟨same, numeric, line, given, divided⟩
    · rintro ⟨same, numeric, line, given, divided⟩
      exact ⟨line, given, same, numeric, divided⟩

end Input

end IPPcode24
