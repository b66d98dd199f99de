import IPPcode24.Proofs.InputLines

/-!
# Successive reads

The bytes of an input fall into lines in exactly one way. Of several requests each one sees the
line with its own number, whatever the others have asked for and got. It has no value if there
is no such line or the bytes of the line are no text. Otherwise it gets the text of the line
and answers with what the text, or the word between the blanks at its ends, stands for.
-/

namespace IPPcode24

namespace Input

/-- The bytes of a line, and whether a line feed comes after them. -/
structure ByteLine where
  bytes : List UInt8
  ended : Bool
deriving DecidableEq

/-- The bytes are these lines in a row. Only the last line may lack its line feed, and then it
is not empty. -/
inductive HasByteLines : List UInt8 → List ByteLine → Prop where
  | nil : HasByteLines [] []
  | last {bytes : List UInt8} (occupied : bytes ≠ []) (unbroken : 10 ∉ bytes) :
      HasByteLines bytes [⟨bytes, false⟩]
  | ended {bytes rest : List UInt8} {lines : List ByteLine} (unbroken : 10 ∉ bytes)
      (later : HasByteLines rest lines) :
      HasByteLines (bytes ++ 10 :: rest) (⟨bytes, true⟩ :: lines)

/-- The line has the text. One carriage return directly before a line feed is no part of it. -/
inductive ByteLine.HasText : ByteLine → Text → Prop where
  | last {text : Text} : HasText ⟨Text.utf8 text, false⟩ text
  | ended {text : Text} (kept : text.getLast? ≠ some '\r') : HasText ⟨Text.utf8 text, true⟩ text
  | returned {text : Text} : HasText ⟨Text.utf8 (text ++ ['\r']), true⟩ text

def ByteLine.taken (line : ByteLine) : List UInt8 :=
  if line.ended then line.bytes ++ [10] else line.bytes

/-- What a request for a value of a type makes of the text of its line. -/
inductive AnswersText : Kind → Text → Except Crash (Option Value) → Prop where
  | string {text : Text} : AnswersText .string text (.ok (some (.string text)))
  | bool {text word : Text} (trimmed : Text.Trimmed text word) :
      AnswersText .bool text
        (.ok (some (.bool (decide (word.map Char.toLower = "true".toList)))))
  | int {text word : Text} (trimmed : Text.Trimmed text word) :
      AnswersText .int text ((Literal.parseInt word).map (·.map Value.int))
  | float {text word : Text} (trimmed : Text.Trimmed text word) :
      AnswersText .float text ((Literal.parseFloat word).map (·.map Value.float))

/-- What a request makes of its line, if there is one. -/
inductive AnswersLine (kind : Kind) : Option ByteLine → Except Crash (Option Value) → Prop where
  | absent : AnswersLine kind none (.ok none)
  | noText {line : ByteLine} (invalid : ∀ text, line.bytes ≠ Text.utf8 text) :
      AnswersLine kind (some line) (.ok none)
  | text {line : ByteLine} {text : Text} {answer : Except Crash (Option Value)}
      (has : line.HasText text) (answers : AnswersText kind text answer) :
      AnswersLine kind (some line) answer

/-- The answers to requests made one after the other, and the input after them. -/
def readEach : List Kind → Input → List (Except Crash (Option Value)) × Input
  | [], input => ([], input)
  | kind :: kinds, input =>
    ((input.read kind).1 :: (readEach kinds (input.read kind).2).1,
      (readEach kinds (input.read kind).2).2)

/-! ## Lines -/

section Lines

variable {bytes rest : List UInt8} {lines others : List ByteLine}

theorem HasByteLines.exists_cons {byte : UInt8} (other : byte ≠ 10)
    (has : HasByteLines bytes lines) : ∃ lines, HasByteLines (byte :: bytes) lines := by
  have unbroken {front : List UInt8} (absent : 10 ∉ front) : 10 ∉ byte :: front := fun member =>
    (List.mem_cons.mp member).elim (Ne.symm other) absent
  cases has with
  | nil => exact ⟨_, .last (List.cons_ne_nil byte []) (unbroken List.not_mem_nil)⟩
  | last _ absent => exact ⟨_, .last (List.cons_ne_nil byte bytes) (unbroken absent)⟩
  | ended absent later => exact ⟨_, .ended (unbroken absent) later⟩

theorem exists_hasByteLines (bytes : List UInt8) : ∃ lines, HasByteLines bytes lines := by
  induction bytes with
  | nil => exact ⟨[], .nil⟩
  | cons byte rest ih =>
    obtain ⟨lines, has⟩ := ih
    by_cases feed : byte = 10
    · subst feed
      exact ⟨_, .ended List.not_mem_nil has⟩
    · exact has.exists_cons feed

theorem HasByteLines.splitLine_cons {line : ByteLine} (has : HasByteLines bytes (line :: lines)) :
    splitLine bytes = (line.taken, (splitLine bytes).2) ∧ line.taken ≠ [] ∧ 10 ∉ line.bytes ∧
      HasByteLines (splitLine bytes).2 lines := by
  cases has with
  | last occupied unbroken =>
    rw [splitLine_of_unterminated unbroken]
    exact ⟨rfl, occupied, unbroken, .nil⟩
  | ended unbroken later =>
    rw [splitLine_of_not_mem unbroken]
    exact ⟨rfl, List.append_ne_nil_of_right_ne_nil _ (List.cons_ne_nil 10 []), unbroken, later⟩

theorem ByteLine.eq_of_taken_eq {line other : ByteLine} (unbroken : 10 ∉ line.bytes)
    (unbrokenToo : 10 ∉ other.bytes) (same : line.taken = other.taken) : line = other := by
  have fed (front : List UInt8) : (10 : UInt8) ∈ front ++ [10] :=
    List.mem_append_right front List.mem_cons_self
  obtain ⟨bytes, ended⟩ := line
  obtain ⟨bytesToo, endedToo⟩ := other
  cases ended with
  | true =>
    cases endedToo with
    | true => rw [show bytes = bytesToo from List.append_cancel_right same]
    | false =>
      have whole : bytes ++ [10] = bytesToo := same
      exact absurd (whole ▸ fed bytes) unbrokenToo
  | false =>
    cases endedToo with
    | true =>
      have whole : bytes = bytesToo ++ [10] := same
      exact absurd (whole ▸ fed bytesToo) unbroken
    | false => rw [show bytes = bytesToo from same]

theorem HasByteLines.eq_nil_iff (has : HasByteLines bytes lines) : bytes = [] ↔ lines = [] := by
  cases has with
  | nil => exact ⟨fun _ => rfl, fun _ => rfl⟩
  | last occupied _ => simp [occupied]
  | ended _ _ => simp

/-- The lines of an input are determined by its bytes. -/
theorem HasByteLines.unique (has : HasByteLines bytes lines) (hasToo : HasByteLines bytes others) :
    others = lines := by
  induction lines generalizing bytes others with
  | nil => exact hasToo.eq_nil_iff.mp (has.eq_nil_iff.mpr rfl)
  | cons line lines ih =>
    cases others with
    | nil => exact absurd (has.eq_nil_iff.mp (hasToo.eq_nil_iff.mpr rfl)) (List.cons_ne_nil _ _)
    | cons other others =>
      obtain ⟨first, _, unbroken, later⟩ := has.splitLine_cons
      obtain ⟨firstToo, _, unbrokenToo, laterToo⟩ := hasToo.splitLine_cons
      have same := (Prod.mk.inj (firstToo.symm.trans first)).1
      rw [ih later laterToo, ByteLine.eq_of_taken_eq unbrokenToo unbroken same]

end Lines

/-! ## Texts of lines -/

section Texts

variable {bytes : List UInt8} {text : Text}

theorem exists_of_append_eq_utf8 (encoded : bytes ++ [10] = Text.utf8 text) :
    ∃ front, text = front ++ ['\n'] ∧ bytes = Text.utf8 front := by
  rcases text.eq_nil_or_concat with rfl | ⟨front, c, rfl⟩
  · exact absurd (List.append_eq_nil_iff.mp encoded).2 (List.cons_ne_nil _ _)
  · have code : Text.utf8 [c] = String.utf8EncodeChar c := List.flatMap_singleton _ _
    rw [List.concat_eq_append, Text.utf8_append, code] at encoded
    have last : (10 : UInt8) ∈ String.utf8EncodeChar c := by
      have ends := congrArg List.getLast? encoded
      rw [List.getLast?_concat, List.getLast?_append,
        List.getLast?_eq_some_getLast String.utf8EncodeChar_ne_nil, Option.some_or] at ends
      rw [Option.some.inj ends]
      exact List.getLast_mem _
    have feed : c = '\n' :=
      Decidable.not_not.mp fun other => Text.ten_not_mem_utf8EncodeChar other last
    rw [feed] at encoded ⊢
    exact ⟨front, List.concat_eq_append, List.append_cancel_right encoded⟩

theorem ByteLine.text_of_taken (line : ByteLine) (unbroken : 10 ∉ line.bytes) :
    (∃ text, (Text.ofUtf8? line.taken).map dropLineEnd = some text ∧ line.HasText text) ∨
      (Text.ofUtf8? line.taken).map dropLineEnd = none ∧ ∀ text, line.bytes ≠ Text.utf8 text := by
  obtain ⟨bytes, ended⟩ := line
  by_cases valid : ∃ text, bytes = Text.utf8 text
  · obtain ⟨text, rfl⟩ := valid
    refine Or.inl ?_
    cases ended with
    | true =>
      have encoded : taken ⟨Text.utf8 text, true⟩ = Text.utf8 (text ++ ['\n']) :=
        (Text.utf8_append text ['\n']).symm
      refine ⟨dropLineEnd (text ++ ['\n']), ?_, ?_⟩
      · rw [encoded, Text.ofUtf8?_utf8]
        rfl
      · rw [dropLineEnd_append]
        split
        · rename_i returns
          obtain ⟨front, rfl⟩ := List.getLast?_eq_some_iff.mp returns
          rw [List.dropLast_concat]
          exact .returned
        · rename_i kept
          exact .ended kept
    | false =>
      have single : '\n' ∉ text := fun member =>
        unbroken (List.mem_flatMap.mpr ⟨'\n', member, List.mem_cons_self⟩)
      have encoded : taken ⟨Text.utf8 text, false⟩ = Text.utf8 text := rfl
      refine ⟨text, ?_, .last⟩
      rw [encoded, Text.ofUtf8?_utf8, Option.map_some, dropLineEnd_of_not_mem single]
  · have invalid : ∀ text, bytes ≠ Text.utf8 text := fun text same => valid ⟨text, same⟩
    refine Or.inr ⟨?_, invalid⟩
    cases decoded : Text.ofUtf8? (taken ⟨bytes, ended⟩) with
    | none => rfl
    | some text =>
      have encoded := Text.ofUtf8?_eq_some_iff.mp decoded
      cases ended with
      | true =>
        obtain ⟨front, _, same⟩ := exists_of_append_eq_utf8 encoded
        exact absurd same (invalid front)
      | false => exact absurd encoded (invalid text)

end Texts

/-! ## Requests -/

section Requests

variable {bytes : List UInt8} {lines : List ByteLine} {kind : Kind}

theorem answersText_valueOfLine (asks : kind ≠ .nil) (text : Text) :
    AnswersText kind text (valueOfLine kind text) := by
  have trimmed := Text.trim_eq_iff.mp (rfl : Text.trim text = _)
  cases kind with
  | nil => exact absurd rfl asks
  | string => exact .string
  | bool =>
    have same : Text.sameLetters (Text.trim text) "true".toList =
        decide ((Text.trim text).map Char.toLower = "true".toList) := by
      rw [Bool.eq_iff_iff, Text.sameLetters, beq_iff_eq, decide_eq_true_eq]
      rfl
    rw [valueOfLine, same]
    exact .bool trimmed
  | int => exact .int trimmed
  | float => exact .float trimmed

theorem ByteLine.HasText.unique {line : ByteLine} {text other : Text} (has : line.HasText text)
    (hasToo : line.HasText other) : text = other := by
  obtain ⟨bytes, ended⟩ := line
  generalize encoded : bytes = source at hasToo
  cases has with
  | last =>
    cases hasToo with
    | last => exact Text.utf8_injective encoded
  | ended kept =>
    cases hasToo with
    | ended _ => exact Text.utf8_injective encoded
    | returned =>
      rw [Text.utf8_injective encoded] at kept
      exact absurd List.getLast?_concat kept
  | returned =>
    cases hasToo with
    | ended kept =>
      rw [← Text.utf8_injective encoded] at kept
      exact absurd List.getLast?_concat kept
    | returned => exact List.append_cancel_right (Text.utf8_injective encoded)

theorem AnswersText.unique {text : Text} {answer other : Except Crash (Option Value)}
    (answers : AnswersText kind text answer) (answersToo : AnswersText kind text other) :
    answer = other := by
  cases answers with
  | string =>
    cases answersToo
    rfl
  | bool trimmed =>
    cases answersToo with
    | bool trimmedToo => rw [trimmed.unique trimmedToo]
  | int trimmed =>
    cases answersToo with
    | int trimmedToo => rw [trimmed.unique trimmedToo]
  | float trimmed =>
    cases answersToo with
    | float trimmedToo => rw [trimmed.unique trimmedToo]

theorem AnswersLine.unique {line? : Option ByteLine} {answer other : Except Crash (Option Value)}
    (answers : AnswersLine kind line? answer) (answersToo : AnswersLine kind line? other) :
    answer = other := by
  have encoded {line : ByteLine} {text : Text} (has : line.HasText text) :
      ∃ text, line.bytes = Text.utf8 text := by
    cases has <;> exact ⟨_, rfl⟩
  cases answers with
  | absent =>
    cases answersToo
    rfl
  | noText invalid =>
    cases answersToo with
    | noText _ => rfl
    | text has _ =>
      obtain ⟨text, same⟩ := encoded has
      exact absurd same (invalid text)
  | text has answers =>
    cases answersToo with
    | noText invalid =>
      obtain ⟨text, same⟩ := encoded has
      exact absurd same (invalid text)
    | text hasToo answersToo =>
      rw [has.unique hasToo] at answers
      exact answers.unique answersToo

theorem read_of_hasByteLines (has : HasByteLines bytes lines) (asks : kind ≠ .nil) :
    AnswersLine kind lines.head? (read kind ⟨bytes⟩).1 ∧
      HasByteLines (read kind ⟨bytes⟩).2.bytes lines.tail := by
  rw [read_fst asks, read_snd, if_neg asks]
  cases lines with
  | nil =>
    rw [has.eq_nil_iff.mpr rfl]
    exact ⟨.absent, .nil⟩
  | cons line lines =>
    obtain ⟨split, occupied, unbroken, later⟩ := has.splitLine_cons
    have next : nextLine ⟨bytes⟩ =
        ((Text.ofUtf8? line.taken).map dropLineEnd, ⟨(splitLine bytes).2⟩) := by
      rw [nextLine, split]
      exact if_neg occupied
    rw [next]
    refine ⟨?_, later⟩
    rcases line.text_of_taken unbroken with ⟨text, given, has⟩ | ⟨none, invalid⟩
    · rw [given]
      exact .text has (answersText_valueOfLine asks text)
    · rw [none]
      exact .noText invalid

/-- Each of several requests answers the line with its own number. -/
theorem readEach_of_hasByteLines {kinds : List Kind} (has : HasByteLines bytes lines)
    (asks : .nil ∉ kinds) :
    (readEach kinds ⟨bytes⟩).1.length = kinds.length ∧
      (∀ (index : Nat) (kind : Kind), kinds[index]? = some kind →
        ∃ answer, (readEach kinds ⟨bytes⟩).1[index]? = some answer ∧
          AnswersLine kind lines[index]? answer) ∧
      HasByteLines (readEach kinds ⟨bytes⟩).2.bytes (lines.drop kinds.length) := by
  induction kinds generalizing bytes lines with
  | nil => exact ⟨rfl, nofun, has⟩
  | cons first kinds ih =>
    have asksFirst : first ≠ .nil := fun same => asks (same ▸ List.mem_cons_self)
    obtain ⟨answers, later⟩ := read_of_hasByteLines has asksFirst
    obtain ⟨length, others, rest⟩ := ih later fun member => asks (List.mem_cons_of_mem _ member)
    refine ⟨congrArg Nat.succ length, ?_, ?_⟩
    · intro index kind asked
      cases index with
      | zero =>
        cases asked
        rw [List.head?_eq_getElem?] at answers
        exact ⟨_, rfl, answers⟩
      | succ index =>
        obtain ⟨answer, given, answers⟩ := others index kind asked
        rw [List.getElem?_tail] at answers
        exact ⟨answer, given, answers⟩
    · rw [List.drop_tail] at rest
      exact rest

end Requests

/-- The bytes of an input fall into lines in exactly one way. However requests for values of the
four types that take a line follow each other, each one is answered as the line with its own
number asks for, and what is left has the lines behind those. -/
theorem reads_answer_their_lines (bytes : List UInt8) {kinds : List Kind} (asks : .nil ∉ kinds) :
    ∃ lines, HasByteLines bytes lines ∧ (∀ others, HasByteLines bytes others → others = lines) ∧
      (readEach kinds ⟨bytes⟩).1.length = kinds.length ∧
      (∀ (index : Nat) (kind : Kind), kinds[index]? = some kind →
        ∀ answer, (readEach kinds ⟨bytes⟩).1[index]? = some answer ↔
          AnswersLine kind lines[index]? answer) ∧
      HasByteLines (readEach kinds ⟨bytes⟩).2.bytes (lines.drop kinds.length) := by
  obtain ⟨lines, has⟩ := exists_hasByteLines bytes
  obtain ⟨length, answers, rest⟩ := readEach_of_hasByteLines has asks
  refine ⟨lines, has, fun _ hasToo => has.unique hasToo, length, ?_, rest⟩
  intro index kind asked answer
  obtain ⟨given, same, answersGiven⟩ := answers index kind asked
  rw [same]
  constructor
  · rintro ⟨⟩
    exact answersGiven
  · intro answersToo
    rw [answersGiven.unique answersToo]

/-- An integer before a carriage return and a line feed, bytes that are no text, a truth value
between blanks, and a last line with a carriage return. -/
def fourLines : List ByteLine :=
  [⟨Text.utf8 ("7".toList ++ ['\r']), true⟩, ⟨[195, 40], true⟩, ⟨Text.utf8 " TRUE\t".toList, true⟩,
    ⟨Text.utf8 "€\r".toList, false⟩]

/-- The second line is consumed without a value, so the third and the fourth request see their own
lines, and the fifth one sees none. -/
theorem bytes_without_text_are_consumed :
    ∃ answers, answers = (readEach [.int, .float, .bool, .string, .string]
        ⟨fourLines.flatMap ByteLine.taken⟩).1 ∧
      answers[0]? = some (.ok (some (.int 7))) ∧ answers[1]? = some (.ok none) ∧
      answers[2]? = some (.ok (some (.bool true))) ∧
      answers[3]? = some (.ok (some (.string "€\r".toList))) ∧ answers[4]? = some (.ok none) := by
  have hasLast : HasByteLines (Text.utf8 "€\r".toList) (fourLines.drop 3) :=
    .last (by decide +kernel) (by decide +kernel)
  have hasThird : HasByteLines (Text.utf8 " TRUE\t".toList ++ 10 :: Text.utf8 "€\r".toList)
      (fourLines.drop 2) := .ended (by decide +kernel) hasLast
  have hasSecond : HasByteLines ([195, 40] ++ 10 :: (Text.utf8 " TRUE\t".toList ++
      10 :: Text.utf8 "€\r".toList)) (fourLines.drop 1) := .ended (by decide) hasThird
  have has : HasByteLines (fourLines.flatMap ByteLine.taken) fourLines :=
    .ended (show 10 ∉ Text.utf8 ("7".toList ++ ['\r']) by decide +kernel) hasSecond
  have asks : Kind.nil ∉ [.int, .float, .bool, .string, .string] := by decide
  obtain ⟨lines, _, only, _, answered, _⟩ :=
    reads_answer_their_lines (fourLines.flatMap ByteLine.taken) asks
  obtain rfl := only fourLines has
  have trimmedInt : Text.Trimmed "7".toList "7".toList := Text.trim_eq_iff.mp (by decide +kernel)
  have trimmedBool : Text.Trimmed " TRUE\t".toList "TRUE".toList :=
    Text.trim_eq_iff.mp (by decide +kernel)
  have seven : AnswersText .int "7".toList (.ok (some (.int 7))) := .int trimmedInt
  have true : AnswersText .bool " TRUE\t".toList (.ok (some (.bool true))) := .bool trimmedBool
  have undecoded : Text.ofUtf8? [195, 40] = none := by decide +kernel
  have invalid (text : Text) (same : [195, 40] = Text.utf8 text) : False := by
    rw [Text.ofUtf8?_eq_some_iff.mpr same] at undecoded
    cases undecoded
  refine ⟨_, rfl, ?_, ?_, ?_, ?_, ?_⟩
  · exact (answered 0 .int rfl _).mpr (.text .returned seven)
  · exact (answered 1 .float rfl _).mpr (.noText invalid)
  · exact (answered 2 .bool rfl _).mpr (.text (.ended (by decide)) true)
  · exact (answered 3 .string rfl _).mpr (.text .last .string)
  · exact (answered 4 .string rfl _).mpr .absent

end Input

end IPPcode24
