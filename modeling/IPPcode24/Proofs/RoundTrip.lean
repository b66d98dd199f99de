import IPPcode24.Proofs.Assembling
import IPPcode24.Source.Render

/-!
# Rendering and reading back

A program of instructions that source text can spell is rendered as a text that is read
back as the same instructions, with the mnemonics of the instruction set and with keys
from one on. The instructions of a source text have these mnemonics and keys already, so
rendering their program and reading it back gives the very same program.
-/

namespace IPPcode24

open Source

/-- The instruction has a known mnemonic in some letter case, exactly the operands that
its signature asks for, of classes that the slots accept, and with texts that source text
has for these classes. -/
structure Instruction.Writable (instruction : Instruction) (opcode : Opcode) : Prop where
  known : instruction.opcode? = some opcode
  count : instruction.operands.length = opcode.signature.length
  fill : Fill opcode.signature instruction.operands
  operands : ∀ operand ∈ instruction.operands, operand.Writable

/-- The mnemonic in the spelling of the instruction set. -/
def Instruction.canonicalMnemonic (instruction : Instruction) : Text :=
  match instruction.opcode? with
  | some opcode => opcode.mnemonic.toList
  | none => instruction.mnemonic

/-- The instructions with canonical mnemonics and with consecutive keys. -/
def canonical (first : Int) : List Instruction → List Instruction
  | [] => []
  | instruction :: rest =>
    ⟨first, instruction.canonicalMnemonic, instruction.operands⟩ :: canonical (first + 1) rest

/-! ## Headers -/

theorem eq_dot_of_isHeader {c : Char} {rest : Text} (header : isHeader (c :: rest) = true) :
    c = '.' := by
  have same := sameLetters_iff.mp header
  have first : c.toLower = '.'.toLower := (List.cons.inj same).1
  have code := congrArg Char.toNat first
  rw [toNat_toLower, toNat_toLower] at code
  rw [← Char.toNat_inj]
  change (if 65 ≤ c.toNat ∧ c.toNat ≤ 90 then c.toNat + 32 else c.toNat) = 46 at code
  change c.toNat = 46
  split at code <;> omega

theorem isHeader_append {front rest : Text} (occupied : front ≠ [])
    (other : front.head? ≠ some '.') : isHeader (front ++ rest) = false := by
  cases front with
  | nil => exact absurd rfl occupied
  | cons c front =>
    rw [Bool.eq_false_iff]
    intro header
    exact other (congrArg some (eq_dot_of_isHeader header))

/-- No operand is written like the header, since none begins with a point. -/
theorem not_isHeader_source {operand : Operand} (writable : operand.Writable) :
    isHeader operand.source = false := by
  obtain ⟨operandClass, text⟩ := operand
  cases operandClass with
  | var =>
    obtain ⟨tag, name, rfl, _⟩ := writable
    refine isHeader_append tag.isWord_name.1.occupied ?_
    cases tag <;> decide
  | label =>
    change isName text = true at writable
    cases text with
    | nil => cases writable
    | cons c rest =>
      refine isHeader_append (List.cons_ne_nil c []) fun same => ?_
      obtain rfl := Option.some.inj same
      have begins : (beginsName '.' && rest.all continuesName) = true := writable
      exact absurd (Bool.and_eq_true_iff.mp begins).1 (by decide)
  | type =>
    obtain ⟨kind, rfl⟩ := writable
    cases kind <;> decide
  | literal kind =>
    refine isHeader_append kind.isWord_name.1.occupied ?_
    cases kind <;> decide

theorem isWord_mnemonic (opcode : Opcode) : IsWord opcode.mnemonic.toList := by
  refine ⟨by cases opcode <;> exact List.cons_ne_nil _ _, fun c member => ?_⟩
  refine isPlain_of_continuesName ?_
  rcases Opcode.capital_of_mem_mnemonic member with upper | digit
  · have letter : c.isAlpha = true := Bool.or_eq_true_iff.mpr (Or.inl upper)
    simp [continuesName, beginsName, letter]
  · simp [continuesName, digit]

theorem not_isHeader_mnemonic (opcode : Opcode) : isHeader opcode.mnemonic.toList = false := by
  cases opcode <;> rfl

/-! ## Lines of a rendered program -/

section Lines

variable {instruction : Instruction} {opcode : Opcode}

/-- The words that the line of an instruction is made of. -/
def Instruction.written (instruction : Instruction) : List Text :=
  Text.capitals instruction.mnemonic :: instruction.operands.map Operand.source

theorem Instruction.source_eq_joined_written (instruction : Instruction) :
    instruction.source = joined instruction.written := by
  rw [Instruction.source, Instruction.written, joined, List.flatMap_map]

/-- The words of the line that an instruction is written on. -/
def wordsOf (opcode : Opcode) (instruction : Instruction) : List Text :=
  opcode.mnemonic.toList :: instruction.operands.map Operand.source

theorem wordsOf_ne_nil : wordsOf opcode instruction ≠ [] := List.cons_ne_nil _ _

theorem isWord_of_mem_wordsOf (writable : instruction.Writable opcode) :
    ∀ word ∈ wordsOf opcode instruction, IsWord word := by
  intro word member
  rcases List.mem_cons.mp member with rfl | member
  · exact isWord_mnemonic opcode
  · obtain ⟨operand, among, rfl⟩ := List.mem_map.mp member
    exact (writable.operands operand among).isWord_source

theorem source_eq_joined (writable : instruction.Writable opcode) :
    instruction.source = joined (wordsOf opcode instruction) := by
  rw [instruction.source_eq_joined_written, Instruction.written,
    Opcode.capitals_of_ofMnemonic? writable.known, wordsOf]

theorem spells_wordsOf (writable : instruction.Writable opcode) (order : Int) :
    Spells (wordsOf opcode instruction)
      ⟨order, instruction.canonicalMnemonic, instruction.operands⟩ := by
  have canonical : instruction.canonicalMnemonic = opcode.mnemonic.toList := by
    rw [Instruction.canonicalMnemonic, writable.known]
  have fits := Fits.of_fill writable.count writable.fill writable.operands
  refine ⟨⟨opcode, canonical, fits, _, opcode.ofMnemonic?_mnemonic, rfl⟩, ?_⟩
  refine List.any_eq_false.mpr fun word member => ?_
  rw [Bool.not_eq_true]
  rcases List.mem_cons.mp member with rfl | member
  · exact not_isHeader_mnemonic opcode
  · obtain ⟨operand, among, rfl⟩ := List.mem_map.mp member
    exact not_isHeader_source (writable.operands operand among)

theorem lines_append {line : Text} (single : '\n' ∉ line) (rest : Text) :
    Text.lines (line ++ '\n' :: rest) = line :: Text.lines rest :=
  Text.pieces_append single rest

theorem numbered_joined {words : List Text} (occupied : words ≠ [])
    (isWord : ∀ word ∈ words, IsWord word) (number : Nat) (rest : List Text) :
    numbered number (joined words :: rest) = (number, words) :: numbered (number + 1) rest :=
  numbered_cons_of_words (wordsOfLine_joined isWord) occupied

/-- The lines of rendered instructions spell them with canonical mnemonics and
consecutive keys. -/
theorem spellsLines_rendered {instructions : List Instruction}
    (writable : ∀ instruction ∈ instructions, ∃ opcode, instruction.Writable opcode)
    (number : Nat) (order : Int) :
    SpellsLines order
      (numbered number (Text.lines (instructions.flatMap fun instruction =>
        instruction.source ++ ['\n'])))
      (canonical order instructions) := by
  -- the header shifts the lines by one, so the two counts are kept apart
  induction instructions generalizing number order with
  | nil => exact .nil
  | cons instruction rest ih =>
    obtain ⟨opcode, first⟩ := writable instruction List.mem_cons_self
    have isWord := isWord_of_mem_wordsOf first
    have others := ih (fun other member => writable other (List.mem_cons_of_mem _ member))
    rw [List.flatMap_cons, source_eq_joined first, List.append_assoc, List.singleton_append,
      lines_append (newline_not_mem_joined isWord),
      numbered_joined wordsOf_ne_nil isWord, canonical]
    exact .cons rfl (spells_wordsOf first order) (others (number + 1) (order + 1))

end Lines

theorem wordedLines_header (rest : Text) :
    wordedLines (".IPPcode24\n".toList ++ rest) =
      (1, [".IPPcode24".toList]) :: numbered 2 (Text.lines rest) := by
  have isWord : ∀ word ∈ [".IPPcode24".toList], IsWord word := by
    intro word member
    rw [List.mem_singleton.mp member]
    decide
  have split : ".IPPcode24\n".toList ++ rest = joined [".IPPcode24".toList] ++ '\n' :: rest := rfl
  rw [wordedLines, split, lines_append (newline_not_mem_joined isWord),
    numbered_joined (List.cons_ne_nil _ _) isWord]

theorem wordedLines_render (program : Program) :
    wordedLines program.render = (1, [".IPPcode24".toList]) ::
      numbered 2 (Text.lines (program.instructions.flatMap fun instruction =>
        instruction.source ++ ['\n'])) :=
  wordedLines_header _

/-- A program of writable instructions is read back from its rendering. -/
theorem assemble_render {program : Program}
    (writable : ∀ instruction ∈ program.instructions, ∃ opcode, instruction.Writable opcode) :
    assemble program.render = .ok (canonical 1 program.instructions) :=
  assemble_eq_ok_iff.mpr ⟨1, _, _, wordedLines_render program, by decide,
    spellsLines_rendered writable 2 1⟩

/-! ## Rendering what was read -/

theorem Instruction.Proper.writable {instruction : Instruction} (proper : instruction.Proper) :
    ∃ opcode, instruction.Writable opcode ∧ instruction.mnemonic = opcode.mnemonic.toList := by
  obtain ⟨opcode, own, fits⟩ := proper
  have known : instruction.opcode? = some opcode := by
    rw [Instruction.opcode?, own, opcode.ofMnemonic?_mnemonic]
  exact ⟨opcode, ⟨known, fits.length_eq, fits.fill, fits.writable⟩, own⟩

/-- Proper instructions with consecutive keys are canonical. -/
theorem canonical_eq_self {first : Int} {records : List Instruction} (keyed : Keyed first records)
    (proper : ∀ instruction ∈ records, instruction.Proper) : canonical first records = records := by
  induction keyed with
  | nil => rfl
  | cons key _ ih =>
    rename_i first instruction rest _
    have others := ih fun other member => proper other (List.mem_cons_of_mem _ member)
    obtain ⟨opcode, writable, own⟩ := (proper instruction List.mem_cons_self).writable
    have mnemonic : instruction.canonicalMnemonic = instruction.mnemonic := by
      rw [Instruction.canonicalMnemonic, writable.known, own]
    rw [canonical, others, mnemonic, ← key]

/-- A program of writable records is rendered as a text that is read as its instructions,
in order, with canonical mnemonics and the keys one, two, three and so on; and the program
of a source text is the program of its own rendering. -/
theorem render_reads_back :
    (∀ (records : List Instruction) (program : Program), Program.build records = .ok program →
      (∀ record ∈ records, ∃ opcode, record.Writable opcode) →
        assemble program.render = .ok (canonical 1 program.instructions)) ∧
    ∀ (text : Text) (records : List Instruction) (program : Program),
      assemble text = .ok records → Program.build records = .ok program →
        ∃ again, assemble program.render = .ok again ∧ Program.build again = .ok program := by
  have reads {records : List Instruction} {program : Program}
      (built : Program.build records = .ok program)
      (writable : ∀ record ∈ records, ∃ opcode, record.Writable opcode) :
      assemble program.render = .ok (canonical 1 program.instructions) := by
    refine assemble_render fun instruction member => writable instruction ?_
    rw [(Program.build_eq_ok built).1] at member
    exact Program.mem_sorted.mp member
  refine ⟨fun records program => reads, ?_⟩
  intro text records program assembled built
  obtain ⟨keyed, proper⟩ := keyed_and_proper_of_assemble assembled
  refine ⟨canonical 1 program.instructions, ?_, ?_⟩
  · refine reads built fun record member => ?_
    obtain ⟨opcode, writable, _⟩ := (proper record member).writable
    exact ⟨opcode, writable⟩
  · rw [(Program.build_eq_ok built).1, keyed.sorted_eq, canonical_eq_self keyed proper]
    exact built

/-- Records in no order, with mnemonics in small letters and a text with an escape. -/
def scattered : List Instruction :=
  [⟨9, "write".toList, [⟨.literal .string, "a\\032b".toList⟩]⟩,
    ⟨-3, "Defvar".toList, [⟨.var, "GF@x".toList⟩]⟩]

/-- The scattered records are read back in order, and so is a source text. -/
theorem scattered_reads_back :
    ∃ program, Program.build scattered = .ok program ∧
      (∀ record ∈ scattered, ∃ opcode, record.Writable opcode) ∧
      assemble program.render =
        .ok [⟨1, "DEFVAR".toList, [⟨.var, "GF@x".toList⟩]⟩,
          ⟨2, "WRITE".toList, [⟨.literal .string, "a\\032b".toList⟩]⟩] ∧
      ∃ again, assemble program.render = .ok again ∧
        ∃ program', Program.build again = .ok program' ∧
          ∃ last, assemble program'.render = .ok last ∧ Program.build last = .ok program' := by
  let program : Program := ⟨Program.sorted scattered, []⟩
  have built : Program.build scattered = .ok program := by decide +kernel
  have word : IsWord "a\\032b".toList := by decide
  have first : Fits Opcode.write.signature [⟨.literal .string, "a\\032b".toList⟩] :=
    .cons rfl ⟨by decide, word.plain⟩ .nil
  have second : Fits Opcode.defVar.signature [⟨.var, "GF@x".toList⟩] :=
    .cons rfl ⟨.gf, ['x'], by decide, by decide⟩ .nil
  have writable : ∀ record ∈ scattered, ∃ opcode, record.Writable opcode := by
    intro record member
    simp only [scattered, List.mem_cons, List.not_mem_nil, or_false] at member
    rcases member with rfl | rfl
    · exact ⟨.write, by decide, first.length_eq, first.fill, first.writable⟩
    · exact ⟨.defVar, by decide, second.length_eq, second.fill, second.writable⟩
  have read := render_reads_back.1 scattered program built writable
  have rebuilt : ∃ program', Program.build (canonical 1 program.instructions) = .ok program' :=
    ⟨⟨canonical 1 program.instructions, []⟩, by decide +kernel⟩
  obtain ⟨program', rebuilt⟩ := rebuilt
  refine ⟨program, built, writable, ?_, _, read, program', rebuilt,
    render_reads_back.2 program.render _ program' read rebuilt⟩
  rw [read]
  decide +kernel

end IPPcode24
