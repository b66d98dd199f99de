import IPPcode24.Proofs.CrashingSources
import IPPcode24.Proofs.Grammar

/-!
# Wrong source texts

What is wrong with a source text is the first thing in it that the grammar does not allow. The
lines are looked at from the top; on a line, headers come before the mnemonic, the mnemonic
before the number of operands, and that before the operands from the left. Assembling a text
fails exactly with what is wrong with it.
-/

namespace IPPcode24

open Source

/-! ## Words -/

/-- The word is how a legal operand of the slot is written. -/
def CanFill (slot : Slot) (word : Text) : Prop :=
  ∃ operand, Legal slot operand ∧ operand.source = word

/-- The leftmost word that cannot fill its slot. A divided constant in a symbol slot is none: it
crashes. -/
inductive LeftmostIllegal : List Slot → List Text → Slot → Text → Prop where
  | here {slot : Slot} {slots : List Slot} {word : Text} {words : List Text}
      (illegal : ¬ CanFill slot word) (undivided : ¬ (slot = .symbol ∧ DividedConstant word)) :
      LeftmostIllegal (slot :: slots) (word :: words) slot word
  | later {slot : Slot} {slots : List Slot} {word : Text} {words : List Text} {badSlot : Slot}
      {bad : Text} (legal : CanFill slot word) (later : LeftmostIllegal slots words badSlot bad) :
      LeftmostIllegal (slot :: slots) (word :: words) badSlot bad

section Operands

variable {slot : Slot} {word : Text}

theorem exists_operandOf?_iff (isWord : IsWord word) :
    (∃ operand, operandOf? slot word = .ok (some operand)) ↔ CanFill slot word := by
  constructor
  · rintro ⟨operand, read⟩
    obtain ⟨accepted, rfl, writable⟩ := (operandOf?_eq_some_iff isWord).mp read
    exact ⟨operand, (legal_iff isWord).mpr ⟨accepted, writable⟩, rfl⟩
  · rintro ⟨operand, legal, rfl⟩
    obtain ⟨accepted, writable⟩ := (legal_iff isWord).mp legal
    exact ⟨operand, (operandOf?_eq_some_iff isWord).mpr ⟨accepted, rfl, writable⟩⟩

theorem operandOf?_eq_none_iff (isWord : IsWord word) :
    operandOf? slot word = .ok none ↔
      ¬ CanFill slot word ∧ ¬ (slot = .symbol ∧ DividedConstant word) := by
  rw [← exists_operandOf?_iff isWord]
  have crashes (divided : slot = .symbol ∧ DividedConstant word) :
      operandOf? slot word = .error .dividedCharacter := operandOf?_eq_error.mpr ⟨rfl, divided⟩
  cases read : operandOf? slot word with
  | error crash =>
    have divided := (operandOf?_eq_error.mp read).2
    exact ⟨nofun, fun both => absurd divided both.2⟩
  | ok operand? =>
    cases operand? with
    | none =>
      refine ⟨fun _ => ⟨fun ⟨operand, impossible⟩ => (nomatch impossible), fun divided => ?_⟩,
        fun _ => rfl⟩
      rw [crashes divided] at read
      cases read
    | some operand =>
      exact ⟨nofun, fun both => absurd ⟨operand, rfl⟩ both.1⟩

theorem operands_eq_error_iff {line : Nat} {slots : List Slot} {words : List Text}
    {error : SourceError} (isWord : ∀ word ∈ words, IsWord word) :
    operands line slots words = .error (.error error) ↔
      ∃ slot word, LeftmostIllegal slots words slot word ∧
        error = ⟨line, .invalidOperand slot word⟩ := by
  induction slots generalizing words with
  | nil => exact ⟨nofun, fun ⟨_, _, illegal, _⟩ => nomatch illegal⟩
  | cons slot slots ih =>
    cases words with
    | nil => exact ⟨nofun, fun ⟨_, _, illegal, _⟩ => nomatch illegal⟩
    | cons word words =>
      have isFirst := isWord word List.mem_cons_self
      have isLater := fun other member => isWord other (List.mem_cons_of_mem word member)
      rw [operands]
      constructor
      · intro failed
        rcases Chain.bind_eq_error.mp failed with failed | ⟨operand?, read, failed⟩
        · obtain ⟨crash, _, impossible⟩ := orCrash_eq_error.mp failed
          cases impossible
        · have read := orCrash_eq_ok.mp read
          cases operand? with
          | none =>
            cases failed
            obtain ⟨illegal, undivided⟩ := (operandOf?_eq_none_iff isFirst).mp read
            exact ⟨slot, word, .here illegal undivided, rfl⟩
          | some operand =>
            rcases Chain.bind_eq_error.mp failed with failed | ⟨_, _, impossible⟩
            · obtain ⟨badSlot, bad, illegal, same⟩ := (ih isLater).mp failed
              have legal := (exists_operandOf?_iff isFirst).mp ⟨operand, read⟩
              exact ⟨badSlot, bad, .later legal illegal, same⟩
            · cases impossible
      · rintro ⟨badSlot, bad, illegal, rfl⟩
        cases illegal with
        | here illegal undivided =>
          rw [(operandOf?_eq_none_iff isFirst).mpr ⟨illegal, undivided⟩]
          rfl
        | later legal later =>
          obtain ⟨operand, read⟩ := (exists_operandOf?_iff isFirst).mpr legal
          have failed := (ih isLater).mpr ⟨badSlot, bad, later, rfl⟩
          refine Chain.bind_eq_error.mpr (Or.inr ⟨_, orCrash_eq_ok.mpr read, ?_⟩)
          simp only [failed, Chain.bind_error]

end Operands

/-! ## Lines -/

/-- What is wrong with the words of a line that follows the header. -/
inductive WrongLine : List Text → SourceFault → Prop where
  | header {words : List Text} {word : Text} (member : word ∈ words)
      (named : isHeader word = true) : WrongLine words .duplicateHeader
  | opcode {word : Text} {arguments : List Text}
      (noHeader : ∀ other ∈ word :: arguments, isHeader other = false)
      (unknown : ∀ opcode : Opcode, Text.fold word ≠ Text.fold opcode.mnemonic.toList) :
      WrongLine (word :: arguments) (.unknownOpcode word)
  | count {word : Text} {arguments : List Text} {opcode : Opcode}
      (noHeader : ∀ other ∈ word :: arguments, isHeader other = false)
      (known : Text.fold word = Text.fold opcode.mnemonic.toList)
      (different : arguments.length ≠ opcode.signature.length) :
      WrongLine (word :: arguments) (.operandCount opcode arguments.length)
  | operand {word : Text} {arguments : List Text} {opcode : Opcode} {slot : Slot} {bad : Text}
      (noHeader : ∀ other ∈ word :: arguments, isHeader other = false)
      (known : Text.fold word = Text.fold opcode.mnemonic.toList)
      (same : arguments.length = opcode.signature.length)
      (illegal : LeftmostIllegal opcode.signature arguments slot bad) :
      WrongLine (word :: arguments) (.invalidOperand slot bad)

section Lines

variable {words : List Text}

theorem any_isHeader_eq_false :
    words.any isHeader = false ↔ ∀ word ∈ words, isHeader word = false := by
  rw [List.any_eq_false]
  simp only [Bool.not_eq_true]

theorem ofMnemonic?_eq_some_iff_fold {word : Text} {opcode : Opcode} :
    Opcode.ofMnemonic? word = some opcode ↔
      Text.fold word = Text.fold opcode.mnemonic.toList := by
  rw [Opcode.ofMnemonic?_eq_some_iff, sameLetters_iff, eq_comm]

theorem instruction_eq_error_iff {line : Nat} {order : Int} {error : SourceError}
    (isWord : ∀ word ∈ words, IsWord word) (occupied : words ≠ []) :
    instruction line order words = .error (.error error) ↔
      error.line = line ∧ WrongLine words error.fault := by
  constructor
  · intro failed
    unfold instruction at failed
    split at failed
    · rename_i header
      obtain ⟨word, member, named⟩ := List.any_eq_true.mp header
      cases failed
      exact ⟨rfl, .header member named⟩
    · rename_i unnamed
      have noHeader := any_isHeader_eq_false.mp (Bool.eq_false_of_not_eq_true unnamed)
      split at failed
      · exact absurd rfl occupied
      · rename_i mnemonic arguments
        split at failed
        · rename_i unknown
          cases failed
          refine ⟨rfl, .opcode noHeader fun opcode known => ?_⟩
          rw [ofMnemonic?_eq_some_iff_fold.mpr known] at unknown
          cases unknown
        · rename_i opcode found
          have known := ofMnemonic?_eq_some_iff_fold.mp found
          split at failed
          · rename_i different
            cases failed
            exact ⟨rfl, .count noHeader known different⟩
          · rename_i same
            rcases Chain.bind_eq_error.mp failed with failed | ⟨_, _, impossible⟩
            · obtain ⟨slot, bad, illegal, rfl⟩ := (operands_eq_error_iff fun word member =>
                isWord word (List.mem_cons_of_mem mnemonic member)).mp failed
              exact ⟨rfl, .operand noHeader known (Decidable.not_not.mp same) illegal⟩
            · cases impossible
  · obtain ⟨place, fault⟩ := error
    rintro ⟨rfl, wrong⟩
    unfold instruction
    cases wrong with
    | header member named =>
      rw [if_pos (List.any_eq_true.mpr ⟨_, member, named⟩)]
      rfl
    | @opcode word arguments noHeader unknown =>
      have absent : Opcode.ofMnemonic? word = none := by
        rw [Option.eq_none_iff_forall_ne_some]
        exact fun opcode found => unknown opcode (ofMnemonic?_eq_some_iff_fold.mp found)
      simp only [any_isHeader_eq_false.mpr noHeader, absent]
      rfl
    | count noHeader known different =>
      simp only [any_isHeader_eq_false.mpr noHeader, ofMnemonic?_eq_some_iff_fold.mpr known,
        if_pos different]
      rfl
    | @operand mnemonic arguments opcode slot bad noHeader known same illegal =>
      have failed : operands place opcode.signature arguments =
          .error (.error ⟨place, .invalidOperand slot bad⟩) :=
        (operands_eq_error_iff fun word member =>
          isWord word (List.mem_cons_of_mem mnemonic member)).mpr ⟨slot, bad, illegal, rfl⟩
      simp only [any_isHeader_eq_false.mpr noHeader, ofMnemonic?_eq_some_iff_fold.mpr known,
        if_neg (not_not.mpr same), failed, Chain.bind_error]
      rfl

theorem exists_instruction_iff {line : Nat} {order : Int} (isWord : ∀ word ∈ words, IsWord word) :
    (∃ result, instruction line order words = .ok result) ↔ ∃ record, Written words record := by
  constructor
  · rintro ⟨result, read⟩
    exact ⟨result, (spells_iff isWord).mp (spells_of_instruction isWord read).2⟩
  · rintro ⟨record, spelled, noHeader, legal⟩
    have spells : Spells words { record with order } :=
      (spells_iff isWord).mpr ⟨spelled, noHeader, legal⟩
    exact ⟨_, instruction_of_spells isWord spells⟩

end Lines

/-! ## Numbered lines -/

section Numbered

theorem numbered_append (number : Nat) (front back : List Text) :
    numbered number (front ++ back) =
      numbered number front ++ numbered (number + front.length) back := by
  induction front generalizing number with
  | nil => rfl
  | cons line front ih =>
    have count : number + (line :: front).length = number + 1 + front.length := by
      rw [List.length_cons]
      omega
    rw [List.cons_append, count]
    by_cases wordless : wordsOfLine line = []
    · rw [numbered_cons_of_wordless wordless, numbered_cons_of_wordless wordless, ih]
    · rw [numbered_cons_of_words rfl wordless, numbered_cons_of_words rfl wordless, ih,
        List.cons_append]

theorem numbered_of_wordless {number : Nat} {lines : List Text}
    (wordless : ∀ line ∈ lines, HasWords line []) :
    numbered number lines = [] := by
  induction lines generalizing number with
  | nil => rfl
  | cons line lines ih =>
    rw [numbered_cons_of_wordless (wordsOfLine_eq_iff.mpr (wordless line List.mem_cons_self))]
    exact ih fun other member => wordless other (List.mem_cons_of_mem line member)

/-- Lines have no words, or there is a first one that has some. -/
theorem wordless_or_first_words (lines : List Text) :
    (∀ line ∈ lines, HasWords line []) ∨
      ∃ before line after words, lines = before ++ line :: after ∧
        (∀ other ∈ before, HasWords other []) ∧ HasWords line words ∧ words ≠ [] := by
  induction lines with
  | nil => exact .inl nofun
  | cons line lines ih =>
    by_cases wordless : wordsOfLine line = []
    · have first : HasWords line [] := wordsOfLine_eq_iff.mp wordless
      rcases ih with none | ⟨before, other, after, words, rfl, earlier, found, occupied⟩
      · exact .inl (List.forall_mem_cons.mpr ⟨first, none⟩)
      · exact .inr ⟨line :: before, other, after, words, rfl,
          List.forall_mem_cons.mpr ⟨first, earlier⟩, found, occupied⟩
    · exact .inr ⟨[], line, lines, _, rfl, nofun, wordsOfLine_eq_iff.mp rfl, wordless⟩

end Numbered

/-! ## Texts -/

/-- Nothing is wrong with the line: it has no words or those of a record. -/
def Passable (line : Text) : Prop :=
  HasWords line [] ∨ ∃ words record, HasWords line words ∧ Written words record

/-- The error is what is wrong with the first of the lines that is not passable. -/
def FirstWrong (number : Nat) (lines : List Text) (error : SourceError) : Prop :=
  ∃ middle line after words, lines = middle ++ line :: after ∧
    (∀ other ∈ middle, Passable other) ∧ HasWords line words ∧ WrongLine words error.fault ∧
    error.line = number + middle.length

/-- What is wrong with a source text: no line has words; the first one with words is not the
header alone; or it is, and something is wrong with a line behind it. -/
inductive WrongText (text : Text) : SourceError → Prop where
  | wordless {lines : List Text} (has : HasLines text lines)
      (wordless : ∀ line ∈ lines, HasWords line []) : WrongText text ⟨0, .missingHeader⟩
  | header {before after : List Text} {line : Text} {words : List Text}
      (has : HasLines text (before ++ line :: after))
      (wordless : ∀ other ∈ before, HasWords other []) (found : HasWords line words)
      (occupied : words ≠ []) (other : ∀ word, words = [word] → isHeader word = false) :
      WrongText text ⟨before.length + 1, .missingHeader⟩
  | line {before after : List Text} {line header : Text} {error : SourceError}
      (has : HasLines text (before ++ line :: after))
      (wordless : ∀ other ∈ before, HasWords other []) (begins : HasWords line [header])
      (named : isHeader header = true) (wrong : FirstWrong (before.length + 2) after error) :
      WrongText text error

theorem WrongLine.occupied {words : List Text} {fault : SourceFault}
    (wrong : WrongLine words fault) : words ≠ [] := by
  cases wrong with
  | header member => exact List.ne_nil_of_mem member
  | opcode | count | operand => exact List.cons_ne_nil _ _

theorem firstWrong_cons_iff {number : Nat} {line : Text} {lines : List Text}
    {error : SourceError} :
    FirstWrong number (line :: lines) error ↔
      (∃ words, HasWords line words ∧ WrongLine words error.fault ∧ error.line = number) ∨
        Passable line ∧ FirstWrong (number + 1) lines error := by
  constructor
  · rintro ⟨middle, bad, after, words, split, passable, found, wrong, place⟩
    cases middle with
    | nil =>
      cases split
      exact .inl ⟨words, found, wrong, place⟩
    | cons other middle =>
      cases split
      obtain ⟨first, others⟩ := List.forall_mem_cons.mp passable
      refine .inr ⟨first, middle, bad, after, words, rfl, others, found, wrong, ?_⟩
      rw [place, List.length_cons]
      omega
  · rintro (⟨words, found, wrong, place⟩ |
      ⟨first, middle, bad, after, words, rfl, others, found, wrong, place⟩)
    · exact ⟨[], line, lines, words, rfl, nofun, found, wrong, place⟩
    · refine ⟨line :: middle, bad, after, words, rfl, List.forall_mem_cons.mpr ⟨first, others⟩,
        found, wrong, ?_⟩
      rw [place, List.length_cons]
      omega

/-- The lines behind the header fail at the first one that something is wrong with. -/
theorem instructions_eq_error_iff {order : Int} {number : Nat} {lines : List Text}
    {error : SourceError} :
    instructions order (numbered number lines) = .error (.error error) ↔
      FirstWrong number lines error := by
  -- by induction on the lines: those without words have no instruction, and still count
  induction lines generalizing number order with
  | nil =>
    refine ⟨nofun, ?_⟩
    rintro ⟨middle, line, after, words, impossible, _⟩
    exact absurd impossible.symm (List.append_ne_nil_of_right_ne_nil _ (List.cons_ne_nil _ _))
  | cons line lines ih =>
    have same {words : List Text} (found : HasWords line words) : wordsOfLine line = words :=
      wordsOfLine_eq_iff.mpr found
    rw [firstWrong_cons_iff]
    by_cases wordless : wordsOfLine line = []
    · rw [numbered_cons_of_wordless wordless, ih]
      constructor
      · exact fun later => .inr ⟨.inl (wordsOfLine_eq_iff.mp wordless), later⟩
      · rintro (⟨words, found, wrong, _⟩ | ⟨_, later⟩)
        · exact absurd ((same found).symm.trans wordless) wrong.occupied
        · exact later
    · have isWord : ∀ word ∈ wordsOfLine line, IsWord word :=
        fun word member => isWord_of_mem_wordsOfLine member
      have has : HasWords line (wordsOfLine line) := wordsOfLine_eq_iff.mp rfl
      rw [numbered_cons_of_words rfl wordless, instructions]
      constructor
      · intro failed
        rcases Chain.bind_eq_error.mp failed with failed | ⟨result, read, failed⟩
        · obtain ⟨place, wrong⟩ := (instruction_eq_error_iff isWord wordless).mp failed
          exact .inl ⟨_, has, wrong, place⟩
        · obtain ⟨record, written⟩ := (exists_instruction_iff isWord).mp ⟨result, read⟩
          rcases Chain.bind_eq_error.mp failed with failed | ⟨_, _, impossible⟩
          · exact .inr ⟨.inr ⟨_, record, has, written⟩, ih.mp failed⟩
          · cases impossible
      · rintro (⟨words, found, wrong, place⟩ | ⟨passable, later⟩)
        · rw [← same found] at wrong
          exact Chain.bind_eq_error.mpr
            (.inl ((instruction_eq_error_iff isWord wordless).mpr ⟨place, wrong⟩))
        · obtain ⟨record, written⟩ : ∃ record, Written (wordsOfLine line) record := by
            rcases passable with none | ⟨words, record, found, written⟩
            · exact absurd (same none) wordless
            · exact ⟨record, same found ▸ written⟩
          obtain ⟨result, read⟩ := (exists_instruction_iff isWord).mpr ⟨record, written⟩
          rw [read, Chain.bind_ok, ih.mpr later, Chain.bind_error]

/-- The lines with words are those from the first one on. -/
theorem wordedLines_of_hasLines {text : Text} {before after : List Text} {line : Text}
    {words : List Text} (has : HasLines text (before ++ line :: after))
    (wordless : ∀ other ∈ before, HasWords other []) (found : HasWords line words)
    (occupied : words ≠ []) :
    wordedLines text = (before.length + 1, words) :: numbered (before.length + 2) after := by
  rw [wordedLines, lines_eq_iff.mpr has, numbered_append, numbered_of_wordless wordless,
    List.nil_append, numbered_cons_of_words (wordsOfLine_eq_iff.mpr found) occupied,
    Nat.add_comm 1]

/-- A text fails to be assembled exactly with what is wrong with it. -/
theorem assemble_eq_error_iff {text : Text} {error : SourceError} :
    assemble text = .error (.error error) ↔ WrongText text error := by
  constructor
  · intro failed
    have has : HasLines text (Text.lines text) := lines_eq_iff.mp rfl
    rw [assemble] at failed
    rcases wordless_or_first_words (Text.lines text) with
      none | ⟨before, line, after, words, split, wordless, found, occupied⟩
    · rw [wordedLines, numbered_of_wordless none] at failed
      cases failed
      exact .wordless has none
    · rw [split] at has
      rw [wordedLines_of_hasLines has wordless found occupied] at failed
      simp only at failed
      split at failed
      · rename_i header
        split at failed
        · rename_i named
          exact .line has wordless found named (instructions_eq_error_iff.mp failed)
        · rename_i unnamed
          cases failed
          refine .header has wordless found occupied ?_
          intro word same
          cases same
          exact Bool.eq_false_of_not_eq_true unnamed
      · rename_i several
        cases failed
        exact .header has wordless found occupied fun word same => absurd same (several word)
  · intro wrong
    rw [assemble]
    cases wrong with
    | wordless has wordless =>
      rw [wordedLines, lines_eq_iff.mpr has, numbered_of_wordless wordless]
      rfl
    | header has wordless found occupied other =>
      rw [wordedLines_of_hasLines has wordless found occupied]
      simp only
      split
      · rw [other _ rfl]
        rfl
      · rfl
    | line has wordless begins named wrong =>
      rw [wordedLines_of_hasLines has wordless begins (List.cons_ne_nil _ _)]
      simp only [named, if_true]
      exact instructions_eq_error_iff.mpr wrong

end IPPcode24
