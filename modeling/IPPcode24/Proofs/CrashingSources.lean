import IPPcode24.Proofs.Writable
import IPPcode24.Source.Assemble

/-!
# Source texts that crash

Reading a source text crashes when it gets to a symbol that is the name of a numeric
type, an at sign and a divided text. What comes before that word has been read without a
fault; what comes after it is not looked at.
-/

namespace IPPcode24.Source

/-- The word is a constant of a numeric type with a divided text. -/
def DividedConstant (word : Text) : Prop :=
  ∃ (kind : Kind) (text : Text), word = kind.name.toList ++ '@' :: text ∧
    Literal.IsNumeric kind ∧ Literal.Divided text

theorem constantOf?_eq_error {word : Text} {crash : Crash} :
    constantOf? word = .error crash ↔ crash = .dividedCharacter ∧ DividedConstant word := by
  constructor
  · intro failed
    rcases constantOf?_eq word with none | ⟨kind, text, rfl⟩
    · rw [none] at failed
      cases failed
    · rw [constantOf?_cons, Chain.map_eq_error, isConstant_eq_error] at failed
      exact ⟨failed.1, kind, text, rfl, failed.2⟩
  · rintro ⟨rfl, kind, text, rfl, numeric, divided⟩
    rw [constantOf?_cons, Chain.map_eq_error]
    exact isConstant_eq_error.mpr ⟨rfl, numeric, divided⟩

theorem operandOf?_eq_error {slot : Slot} {word : Text} {crash : Crash} :
    operandOf? slot word = .error crash ↔
      crash = .dividedCharacter ∧ slot = .symbol ∧ DividedConstant word := by
  cases slot with
  | var | label | type => simp [operandOf?]
  | symbol =>
    simp only [operandOf?, true_and]
    rw [← constantOf?_eq_error]
    cases read : variableOf? word with
    | none => rfl
    | some operand =>
      simp only [reduceCtorEq, false_iff]
      intro failed
      obtain ⟨_, kind, text, rfl, _⟩ := constantOf?_eq_error.mp failed
      rw [variableOf?_constant] at read
      cases read

/-- Words that are read as operands up to a divided constant in a symbol slot. -/
inductive GetsDividedWord : List Slot → List Text → Prop where
  | here {slots : List Slot} {word : Text} {words : List Text}
      (divided : DividedConstant word) : GetsDividedWord (.symbol :: slots) (word :: words)
  | later {slot : Slot} {slots : List Slot} {word : Text} {words : List Text} {operand : Operand}
      (read : operandOf? slot word = .ok (some operand)) (gets : GetsDividedWord slots words) :
      GetsDividedWord (slot :: slots) (word :: words)

theorem operands_eq_crash_iff {line : Nat} {slots : List Slot} {words : List Text}
    {crash : Crash} :
    operands line slots words = .error (.crash crash) ↔
      crash = .dividedCharacter ∧ GetsDividedWord slots words := by
  induction slots generalizing words with
  | nil => exact ⟨nofun, fun ⟨_, gets⟩ => nomatch gets⟩
  | cons slot slots ih =>
    cases words with
    | nil => exact ⟨nofun, fun ⟨_, gets⟩ => nomatch gets⟩
    | cons word words =>
      rw [operands]
      constructor
      · intro failed
        rcases Chain.bind_eq_error.mp failed with failed | ⟨operand?, read, failed⟩
        · obtain ⟨other, crashed, same⟩ := orCrash_eq_error.mp failed
          cases same
          obtain ⟨rfl, rfl, divided⟩ := operandOf?_eq_error.mp crashed
          exact ⟨rfl, .here divided⟩
        · cases operand? with
          | none => cases failed
          | some operand =>
            rcases Chain.bind_eq_error.mp failed with failed | ⟨_, _, impossible⟩
            · obtain ⟨rfl, gets⟩ := ih.mp failed
              exact ⟨rfl, .later (orCrash_eq_ok.mp read) gets⟩
            · cases impossible
      · rintro ⟨rfl, gets⟩
        cases gets with
        | here divided =>
          have crashed : operandOf? .symbol word = .error .dividedCharacter :=
            operandOf?_eq_error.mpr ⟨rfl, rfl, divided⟩
          exact Chain.bind_eq_error.mpr (Or.inl (orCrash_eq_error.mpr ⟨_, crashed, rfl⟩))
        | later read gets =>
          have failed := ih.mpr ⟨rfl, gets⟩
          refine Chain.bind_eq_error.mpr (Or.inr ⟨_, orCrash_eq_ok.mpr read, ?_⟩)
          simp only [failed, Chain.bind_error]

/-- A line that is no header, with a known mnemonic and as many words as its opcode has
operands, the first unreadable one of which is a divided constant. -/
def DividedLine (words : List Text) : Prop :=
  words.any isHeader = false ∧
    ∃ mnemonic arguments opcode, words = mnemonic :: arguments ∧
      Opcode.ofMnemonic? mnemonic = some opcode ∧
      arguments.length = opcode.signature.length ∧ GetsDividedWord opcode.signature arguments

theorem instruction_eq_crash_iff {line : Nat} {order : Int} {words : List Text} {crash : Crash} :
    instruction line order words = .error (.crash crash) ↔
      crash = .dividedCharacter ∧ DividedLine words := by
  constructor
  · intro failed
    unfold instruction at failed
    split at failed
    · cases failed
    · rename_i noHeader
      split at failed
      · cases failed
      · rename_i mnemonic arguments
        split at failed
        · cases failed
        · rename_i opcode known
          split at failed
          · cases failed
          · rename_i same
            rcases Chain.bind_eq_error.mp failed with failed | ⟨_, _, impossible⟩
            · obtain ⟨rfl, gets⟩ := operands_eq_crash_iff.mp failed
              exact ⟨rfl, by simpa using noHeader, mnemonic, arguments, opcode, rfl, known,
                Decidable.not_not.mp same, gets⟩
            · cases impossible
  · rintro ⟨rfl, noHeader, mnemonic, arguments, opcode, rfl, known, same, gets⟩
    have failed : operands line opcode.signature arguments =
        .error (.crash .dividedCharacter) := operands_eq_crash_iff.mpr ⟨rfl, gets⟩
    rw [instruction]
    simp [noHeader, known, same, failed]

/-- Lines that are read as instructions up to one with a divided constant. -/
inductive GetsDividedLine : Int → List (Nat × List Text) → Prop where
  | here {order : Int} {line : Nat} {words : List Text} {lines : List (Nat × List Text)}
      (divided : DividedLine words) : GetsDividedLine order ((line, words) :: lines)
  | later {order : Int} {line : Nat} {words : List Text} {lines : List (Nat × List Text)}
      {result : Instruction} (read : instruction line order words = .ok result)
      (gets : GetsDividedLine (order + 1) lines) :
      GetsDividedLine order ((line, words) :: lines)

theorem instructions_eq_crash_iff {order : Int} {lines : List (Nat × List Text)}
    {crash : Crash} :
    instructions order lines = .error (.crash crash) ↔
      crash = .dividedCharacter ∧ GetsDividedLine order lines := by
  induction lines generalizing order with
  | nil => exact ⟨nofun, fun ⟨_, gets⟩ => nomatch gets⟩
  | cons entry lines ih =>
    obtain ⟨line, words⟩ := entry
    rw [instructions]
    constructor
    · intro failed
      rcases Chain.bind_eq_error.mp failed with failed | ⟨result, read, failed⟩
      · obtain ⟨rfl, divided⟩ := instruction_eq_crash_iff.mp failed
        exact ⟨rfl, .here divided⟩
      · rcases Chain.bind_eq_error.mp failed with failed | ⟨_, _, impossible⟩
        · obtain ⟨rfl, gets⟩ := ih.mp failed
          exact ⟨rfl, .later read gets⟩
        · cases impossible
    · rintro ⟨rfl, gets⟩
      cases gets with
      | here divided =>
        have failed : instruction line order words = .error (.crash .dividedCharacter) :=
          instruction_eq_crash_iff.mpr ⟨rfl, divided⟩
        rw [failed, Chain.bind_error]
      | later read gets =>
        rw [read, Chain.bind_ok, ih.mpr ⟨rfl, gets⟩, Chain.bind_error]

/-- The text begins with a header, and its lines are read up to one with a divided
constant. -/
def GetsDividedConstant (text : Text) : Prop :=
  ∃ line header lines, wordedLines text = (line, [header]) :: lines ∧
    isHeader header = true ∧ GetsDividedLine 1 lines

/-- Reading a source text crashes exactly when it gets to a divided constant. -/
theorem assemble_eq_crash_iff {text : Text} {crash : Crash} :
    assemble text = .error (.crash crash) ↔
      crash = .dividedCharacter ∧ GetsDividedConstant text := by
  constructor
  · intro failed
    rw [assemble] at failed
    split at failed
    · cases failed
    · rename_i line words lines worded
      split at failed
      · rename_i header
        split at failed
        · rename_i isHeader
          obtain ⟨rfl, gets⟩ := instructions_eq_crash_iff.mp failed
          exact ⟨rfl, line, header, lines, worded, isHeader, gets⟩
        · cases failed
      · cases failed
  · rintro ⟨rfl, line, header, lines, worded, isHeader, gets⟩
    simp only [assemble, worded, isHeader, if_true]
    exact instructions_eq_crash_iff.mpr ⟨rfl, gets⟩

end IPPcode24.Source
