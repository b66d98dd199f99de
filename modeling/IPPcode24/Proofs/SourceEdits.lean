import IPPcode24.Proofs.WrongSources

/-!
# Edits of source texts

What stands behind the line of an error does not matter. Lines without words, comments, and
blanks that split no word change nothing but the numbers of the lines that follow.
-/

namespace IPPcode24

open Source

/-! ## What stands behind an error -/

section Behind

variable {text other : Text} {front back : List Text} {error : SourceError}

/-- A text with the first lines of another one. -/
theorem exists_hasLines_of_take (has : HasLines text (front ++ back))
    (same : (Text.lines other).take front.length = (Text.lines text).take front.length) :
    ∃ behind, HasLines other (front ++ behind) := by
  rw [lines_eq_iff.mpr has, List.take_left] at same
  refine ⟨(Text.lines other).drop front.length, lines_eq_iff.mp ?_⟩
  conv_lhs => rw [← List.take_append_drop front.length (Text.lines other), same]

theorem WrongText.of_take (wrong : WrongText text error) (numbered : 0 < error.line)
    (same : (Text.lines other).take error.line = (Text.lines text).take error.line) :
    WrongText other error := by
  cases wrong with
  | wordless => cases numbered
  | @header before after line words has wordless found occupied unnamed =>
    have count : (before ++ [line]).length = before.length + 1 := List.length_append
    rw [List.append_cons] at has
    simp only [← count] at same
    obtain ⟨behind, hasToo⟩ := exists_hasLines_of_take has same
    rw [← List.append_cons] at hasToo
    exact .header hasToo wordless found occupied unnamed
  | @line before after line header _ has wordless begins named wrong =>
    obtain ⟨middle, bad, rest, words, rfl, passable, found, wrong, place⟩ := wrong
    have lines (behind : List Text) : before ++ line :: (middle ++ bad :: behind) =
        (before ++ line :: (middle ++ [bad])) ++ behind := by simp
    have count : (before ++ line :: (middle ++ [bad])).length = error.line := by
      rw [place]
      simp
      omega
    rw [lines] at has
    rw [← count] at same
    obtain ⟨behind, hasToo⟩ := exists_hasLines_of_take has same
    rw [← lines] at hasToo
    exact .line hasToo wordless begins named
      ⟨middle, bad, behind, words, rfl, passable, found, wrong, place⟩

end Behind

/-! ## Edits -/

/-- A blank between the texts splits no word: there is a comment before it or at once behind it,
or a blank or an end of the line on one side. -/
def Gap (front back : Text) : Prop :=
  '#' ∈ front ∨ (∀ c, front.getLast? = some c → Text.isBlank c = true) ∨
    ∀ c, back.head? = some c → Text.isBlank c = true ∨ c = '#'

/-- The line gets a comment or a blank that splits no word. -/
inductive LineEdit : Text → Text → Prop where
  | comment (line comment : Text) : LineEdit line (line ++ '#' :: comment)
  | blank {front back : Text} {c : Char} (blank : Text.isBlank c = true) (gap : Gap front back) :
      LineEdit (front ++ back) (front ++ c :: back)

/-- The new number of a line when another one is put behind a place. -/
def shifted (place number : Nat) : Nat := if number ≤ place then number else number + 1

/-- The text gets a line without words, or one of its lines is edited; with the new numbers of
its lines. -/
inductive Edit (text other : Text) : (Nat → Nat) → Prop where
  | insert {front back : List Text} {line : Text} (has : HasLines text (front ++ back))
      (hasToo : HasLines other (front ++ line :: back)) (wordless : HasWords line []) :
      Edit text other (shifted front.length)
  | change {front back : List Text} {line changed : Text}
      (has : HasLines text (front ++ line :: back))
      (hasToo : HasLines other (front ++ changed :: back)) (edit : LineEdit line changed) :
      Edit text other id

/-- The text is edited any number of times. -/
inductive Edits (text : Text) : Text → (Nat → Nat) → Prop where
  | none : Edits text text id
  | more {between other : Text} {renumber again : Nat → Nat} (edits : Edits text between renumber)
      (edit : Edit between other again) : Edits text other (again ∘ renumber)

section Words

theorem Spaced.append {front back : Text} {words more : List Text} (spaced : Spaced front words)
    {c : Char} (blank : Text.isBlank c = true) (later : Spaced back more) :
    Spaced (front ++ c :: back) (words ++ more) := by
  induction spaced with
  | nil => exact .blank blank later
  | blank first _ ih => exact .blank first ih
  | @word word rest words occupied solid ends _ ih =>
    rw [List.append_assoc]
    refine .word occupied solid ?_ ih
    intro d first
    cases rest with
    | nil =>
      cases first
      exact blank
    | cons e rest => exact ends d first

/-- A blank ends the words before it. -/
theorem words_append_blank (front back : Text) {c : Char} (blank : Text.isBlank c = true) :
    Text.words (front ++ c :: back) = Text.words front ++ Text.words back :=
  words_eq_iff.mpr ((words_eq_iff.mp rfl).append blank (words_eq_iff.mp rfl))

theorem words_blank_cons (back : Text) {c : Char} (blank : Text.isBlank c = true) :
    Text.words (c :: back) = Text.words back := words_append_blank [] back blank

theorem ne_mark_of_blank {c : Char} (blank : Text.isBlank c = true) : c ≠ '#' := by
  rintro rfl
  exact absurd blank (by decide)

theorem words_nil : Text.words [] = [] := rfl

/-- A gap without a comment before it parts the words. -/
theorem words_of_gap {front back : Text} (gap : Gap front back) (unmarked : '#' ∉ front) :
    Text.words (front ++ Text.before '#' back) =
      Text.words front ++ Text.words (Text.before '#' back) := by
  rcases gap with marked | blank | blank
  · exact absurd marked unmarked
  · rcases List.eq_nil_or_concat front with rfl | ⟨front, c, rfl⟩
    · rfl
    · have blank := blank c (by simp)
      rw [List.concat_eq_append, List.append_assoc, List.singleton_append,
        words_append_blank front _ blank, words_append_blank front [] blank, words_nil,
        List.append_nil]
  · cases back with
    | nil => rw [Text.before_of_not_mem List.not_mem_nil, words_nil, List.append_nil,
        List.append_nil]
    | cons c back =>
      rw [Text.before_cons]
      rcases blank c rfl with blank | rfl
      · rw [if_neg (ne_mark_of_blank blank), words_append_blank front _ blank,
          words_blank_cons _ blank]
      · rw [if_pos rfl, words_nil, List.append_nil, List.append_nil]

theorem LineEdit.wordsOfLine_eq {line changed : Text} (edit : LineEdit line changed) :
    wordsOfLine changed = wordsOfLine line := by
  cases edit with
  | comment line comment =>
    by_cases marked : '#' ∈ line
    · rw [wordsOfLine, Text.before_append_of_mem marked, wordsOfLine]
    · rw [wordsOfLine, Text.before_append marked, wordsOfLine, Text.before_of_not_mem marked]
  | @blank front back c blank gap =>
    by_cases marked : '#' ∈ front
    · rw [wordsOfLine, Text.before_append_of_mem marked, wordsOfLine,
        Text.before_append_of_mem marked]
    · rw [wordsOfLine, Text.before_append_of_not_mem marked, Text.before_cons,
        if_neg (ne_mark_of_blank blank), words_append_blank front _ blank, wordsOfLine,
        Text.before_append_of_not_mem marked, words_of_gap gap marked]

end Words

/-! ## New numbers -/

/-- Numbered lines with other numbers. -/
def renumbered (renumber : Nat → Nat) (lines : List (Nat × List Text)) : List (Nat × List Text) :=
  lines.map fun entry => (renumber entry.1, entry.2)

/-- The same result, with another number for the line of an error. -/
def relined {α : Type} (renumber : Nat → Nat) : Assembled α → Assembled α
  | .error (.error error) => .error (.error ⟨renumber error.line, error.fault⟩)
  | .error (.crash crash) => .error (.crash crash)
  | .ok a => .ok a

section Numbers

variable {α β : Type} (renumber : Nat → Nat)

theorem relined_bind (first : Assembled α) (next : α → Assembled β) :
    relined renumber (first >>= next) =
      relined renumber first >>= fun a => relined renumber (next a) := by
  cases first with
  | ok a => rfl
  | error failure => cases failure <;> rfl

theorem relined_orCrash (attempt : Except Crash α) :
    relined renumber (orCrash attempt) = orCrash attempt := by
  cases attempt <;> rfl

theorem operands_relined (line : Nat) (slots : List Slot) (words : List Text) :
    operands (renumber line) slots words = relined renumber (operands line slots words) := by
  induction slots generalizing words with
  | nil => rfl
  | cons slot slots ih =>
    cases words with
    | nil => rfl
    | cons word words =>
      rw [operands, operands, relined_bind, relined_orCrash]
      refine bind_congr fun operand? => ?_
      cases operand? with
      | none => rfl
      | some operand =>
        simp only [relined_bind, ih]
        rfl

theorem instruction_relined (line : Nat) (order : Int) (words : List Text) :
    instruction (renumber line) order words = relined renumber (instruction line order words) := by
  unfold instruction
  split
  · rfl
  · split
    · rfl
    · split
      · rfl
      · split
        · rfl
        · rw [relined_bind, operands_relined]
          rfl

theorem instructions_relined (order : Int) (lines : List (Nat × List Text)) :
    instructions order (renumbered renumber lines) =
      relined renumber (instructions order lines) := by
  induction lines generalizing order with
  | nil => rfl
  | cons entry lines ih =>
    obtain ⟨line, words⟩ := entry
    have later := ih (order + 1)
    rw [renumbered] at later
    rw [renumbered, List.map_cons, instructions, instructions, relined_bind,
      instruction_relined, later]
    refine bind_congr fun first => ?_
    rw [relined_bind]
    rfl

/-- A text whose lines with words have other numbers is assembled alike. -/
theorem assemble_relined {text other : Text} {renumber : Nat → Nat}
    (worded : wordedLines other = renumbered renumber (wordedLines text))
    (zero : renumber 0 = 0) : assemble other = relined renumber (assemble text) := by
  rw [assemble, assemble, worded]
  cases wordedLines text with
  | nil =>
    simp only [renumbered, List.map_nil, failAt, relined, zero]
  | cons entry lines =>
    obtain ⟨line, words⟩ := entry
    simp only [renumbered, List.map_cons]
    split
    · split
      · exact instructions_relined renumber 1 lines
      · rfl
    · rfl

theorem bounds_of_mem_numbered {number : Nat} {lines : List Text} {entry : Nat × List Text}
    (member : entry ∈ numbered number lines) :
    number ≤ entry.1 ∧ entry.1 < number + lines.length := by
  induction lines generalizing number with
  | nil => cases member
  | cons line lines ih =>
    rw [List.length_cons]
    by_cases wordless : wordsOfLine line = []
    · rw [numbered_cons_of_wordless wordless] at member
      have bounds := ih member
      omega
    · rw [numbered_cons_of_words rfl wordless] at member
      rcases List.mem_cons.mp member with rfl | later
      · exact ⟨Nat.le_refl number, by omega⟩
      · have bounds := ih later
        omega

theorem numbered_succ (number : Nat) (lines : List Text) :
    numbered (number + 1) lines = renumbered (· + 1) (numbered number lines) := by
  induction lines generalizing number with
  | nil => rfl
  | cons line lines ih =>
    by_cases wordless : wordsOfLine line = []
    · rw [numbered_cons_of_wordless wordless, numbered_cons_of_wordless wordless, ih]
    · rw [numbered_cons_of_words rfl wordless, numbered_cons_of_words rfl wordless, ih]
      rfl

theorem renumbered_congr {renumber again : Nat → Nat} {lines : List (Nat × List Text)}
    (same : ∀ entry ∈ lines, renumber entry.1 = again entry.1) :
    renumbered renumber lines = renumbered again lines :=
  List.map_congr_left fun entry member => by rw [same entry member]

theorem renumbered_append (renumber : Nat → Nat) (front back : List (Nat × List Text)) :
    renumbered renumber (front ++ back) = renumbered renumber front ++ renumbered renumber back :=
  List.map_append

theorem renumbered_id (lines : List (Nat × List Text)) : renumbered id lines = lines :=
  List.map_id lines

end Numbers

section Edits

variable {text other : Text} {renumber : Nat → Nat}

/-- The lines with words that an edit leaves. -/
theorem Edit.wordedLines_eq (edit : Edit text other renumber) :
    wordedLines other = renumbered renumber (wordedLines text) := by
  cases edit with
  | @insert front back line has hasToo wordless =>
    have early : renumbered (shifted front.length) (numbered 1 front) = numbered 1 front := by
      refine (renumbered_congr fun entry member => ?_).trans (renumbered_id _)
      have bounds := bounds_of_mem_numbered member
      exact if_pos (by omega)
    have late : renumbered (shifted front.length) (numbered (1 + front.length) back) =
        renumbered (· + 1) (numbered (1 + front.length) back) := by
      refine renumbered_congr fun entry member => ?_
      have bounds := bounds_of_mem_numbered member
      exact if_neg (by omega)
    rw [wordedLines, wordedLines, lines_eq_iff.mpr has, lines_eq_iff.mpr hasToo, numbered_append,
      numbered_append, numbered_cons_of_wordless (wordsOfLine_eq_iff.mpr wordless),
      numbered_succ (1 + front.length), renumbered_append, early, late]
  | @change front back line changed has hasToo edit =>
    have same := edit.wordsOfLine_eq
    rw [wordedLines, wordedLines, lines_eq_iff.mpr has, lines_eq_iff.mpr hasToo, renumbered_id,
      numbered_append, numbered_append, numbered, numbered, same]

theorem Edit.zero (edit : Edit text other renumber) : renumber 0 = 0 := by
  cases edit with
  | insert => exact if_pos (Nat.zero_le _)
  | change => rfl

/-- Edited texts are assembled alike, but for the numbers of the lines. -/
theorem Edits.assemble_eq (edits : Edits text other renumber) :
    assemble other = relined renumber (assemble text) := by
  induction edits with
  | none =>
    cases assemble text with
    | ok records => rfl
    | error failure => cases failure <;> rfl
  | more _ edit ih =>
    rw [assemble_relined edit.wordedLines_eq edit.zero, ih]
    cases assemble text with
    | ok records => rfl
    | error failure => cases failure <;> rfl

end Edits

/-! ## The reported fault -/

/-- The error of a source text is what is wrong with it and nothing else. It does not depend on
what stands behind its line, and edits change nothing but the number of that line. -/
theorem assembler_reports_first_fault {text : Text} {error : SourceError}
    (failed : assemble text = .error (.error error)) :
    (∀ other, WrongText text other ↔ other = error) ∧
      (0 < error.line → ∀ other,
        (Text.lines other).take error.line = (Text.lines text).take error.line →
        assemble other = .error (.error error)) ∧
      ∀ other renumber, Edits text other renumber →
        assemble other = .error (.error ⟨renumber error.line, error.fault⟩) := by
  refine ⟨fun other => ?_, fun numbered other same => ?_, fun other renumber edits => ?_⟩
  · rw [← assemble_eq_error_iff, failed, Except.error.injEq, Failure.error.injEq, eq_comm]
  · exact assemble_eq_error_iff.mpr ((assemble_eq_error_iff.mp failed).of_take numbered same)
  · rw [edits.assemble_eq, failed]
    rfl

/-- A text that writes without saying what. -/
def writesNothing : Text := ".IPPcode24\nWRITE\n".toList

/-- The missing operand is reported whatever follows, and on line three behind a comment line. -/
theorem missing_operand_is_reported :
    assemble writesNothing = .error (.error ⟨2, .operandCount .write 0⟩) ∧
      assemble ".IPPcode24\nWRITE\n.IPPcode24\nWRIGHT".toList =
        .error (.error ⟨2, .operandCount .write 0⟩) ∧
      assemble ".IPPcode24\n# nothing\n WRITE\n".toList =
        .error (.error ⟨3, .operandCount .write 0⟩) := by
  have failed : assemble writesNothing = .error (.error ⟨2, .operandCount .write 0⟩) := by
    decide +kernel
  obtain ⟨_, alone, edited⟩ := assembler_reports_first_fault failed
  have inserted : Edit writesNothing ".IPPcode24\n# nothing\nWRITE\n".toList (shifted 1) := by
    have lines : HasLines writesNothing ([".IPPcode24".toList] ++ ["WRITE".toList, []]) :=
      lines_eq_iff.mp (by decide)
    exact .insert lines (lines_eq_iff.mp (by decide))
      (wordsOfLine_eq_iff.mp (by decide : wordsOfLine "# nothing".toList = []))
  have spaced : Edit ".IPPcode24\n# nothing\nWRITE\n".toList
      ".IPPcode24\n# nothing\n WRITE\n".toList id := by
    have lines : HasLines ".IPPcode24\n# nothing\nWRITE\n".toList
        ([".IPPcode24".toList, "# nothing".toList] ++ "WRITE".toList :: [[]]) :=
      lines_eq_iff.mp (by decide)
    have edit : LineEdit "WRITE".toList " WRITE".toList :=
      .blank (by decide : Text.isBlank ' ' = true) (.inr (.inl nofun) : Gap [] "WRITE".toList)
    exact .change lines (lines_eq_iff.mp (by decide)) edit
  refine ⟨failed, alone (by decide) _ (by decide +kernel), ?_⟩
  exact edited _ _ (.more (.more .none inserted) spaced)

end IPPcode24
