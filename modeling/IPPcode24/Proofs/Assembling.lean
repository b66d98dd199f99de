import IPPcode24.Proofs.Obstacles
import IPPcode24.Proofs.Programs
import IPPcode24.Proofs.Writable
import IPPcode24.Source.Assemble

/-!
# Assembled instructions

A line is read as an instruction exactly when it spells one: a known mnemonic and the
writable operands that fit the signature of its opcode. The instructions of a source
text have the keys one, two, three and so on, and the mnemonics of the instruction set.
-/

namespace IPPcode24

open Source

/-- The operands that fill slots: as many of them, each one accepted and writable. -/
inductive Fits : List Slot → List Operand → Prop where
  | nil : Fits [] []
  | cons {slot : Slot} {slots : List Slot} {operand : Operand} {operands : List Operand}
      (accepted : slot.accepts operand.operandClass = true) (writable : operand.Writable)
      (others : Fits slots operands) : Fits (slot :: slots) (operand :: operands)

namespace Fits

variable {slots : List Slot} {operands : List Operand}

theorem length_eq (fits : Fits slots operands) : operands.length = slots.length := by
  induction fits with
  | nil => rfl
  | cons _ _ _ ih => simp [ih]

theorem fill (fits : Fits slots operands) : Fill slots operands := by
  induction fits with
  | nil => exact nofun
  | cons accepted _ _ ih =>
    intro index slot operand hslot hoperand
    cases index with
    | zero =>
      cases hslot
      cases hoperand
      exact accepted
    | succ index => exact ih index slot operand hslot hoperand

theorem writable (fits : Fits slots operands) : ∀ operand ∈ operands, operand.Writable := by
  induction fits with
  | nil => exact fun operand member => absurd member List.not_mem_nil
  | cons _ writable _ ih =>
    intro operand member
    rcases List.mem_cons.mp member with rfl | member
    · exact writable
    · exact ih operand member

theorem of_fill (same : operands.length = slots.length) (fill : Fill slots operands)
    (writable : ∀ operand ∈ operands, operand.Writable) : Fits slots operands := by
  induction slots generalizing operands with
  | nil =>
    rw [List.length_eq_zero_iff.mp same]
    exact .nil
  | cons slot slots ih =>
    cases operands with
    | nil => cases same
    | cons operand operands =>
      refine .cons (fill 0 slot operand rfl rfl) (writable operand List.mem_cons_self) ?_
      refine ih (Nat.succ.inj same) (fun index => fill (index + 1)) ?_
      exact fun other member => writable other (List.mem_cons_of_mem operand member)

end Fits

namespace Source

/-! ## Lines -/

theorem operands_eq_ok_iff {line : Nat} {slots : List Slot} {words : List Text}
    {result : List Operand} (same : words.length = slots.length)
    (isWord : ∀ word ∈ words, IsWord word) :
    operands line slots words = .ok result ↔
      Fits slots result ∧ words = result.map Operand.source := by
  induction slots generalizing words result with
  | nil =>
    rw [List.length_eq_zero_iff.mp same]
    constructor
    · intro read
      cases read
      exact ⟨.nil, rfl⟩
    · rintro ⟨fits, _⟩
      cases fits
      rfl
  | cons slot slots ih =>
    cases words with
    | nil => cases same
    | cons word words =>
      have later (others : List Operand) :
          operands line slots words = .ok others ↔
            Fits slots others ∧ words = others.map Operand.source :=
        ih (Nat.succ.inj same) fun other member => isWord other (List.mem_cons_of_mem word member)
      have isFirst := isWord word List.mem_cons_self
      rw [operands, Chain.bind_eq_ok]
      constructor
      · rintro ⟨operand?, first, read⟩
        cases operand? with
        | none => cases read
        | some operand =>
          obtain ⟨others, rest, same⟩ := Chain.bind_eq_ok.mp read
          cases same
          obtain ⟨accepted, rfl, writable⟩ :=
            (operandOf?_eq_some_iff isFirst).mp (orCrash_eq_ok.mp first)
          obtain ⟨fits, rfl⟩ := (later others).mp rest
          exact ⟨.cons accepted writable fits, rfl⟩
      · rintro ⟨fits, spelled⟩
        cases fits with
        | @cons _ _ operand others accepted writable fits =>
          obtain ⟨rfl, rfl⟩ := List.cons.inj spelled
          have first := (operandOf?_eq_some_iff isFirst).mpr ⟨accepted, rfl, writable⟩
          have rest := (later others).mpr ⟨fits, rfl⟩
          refine ⟨some operand, orCrash_eq_ok.mpr first, ?_⟩
          simp only [rest, Chain.bind_ok, Chain.pure_eq_ok]

/-- An instruction that a line spells: the words are a mnemonic of its opcode and its
operands as they are written, and none of them is the header. -/
structure Spells (words : List Text) (instruction : Instruction) : Prop where
  opcode : ∃ opcode : Opcode, instruction.mnemonic = opcode.mnemonic.toList ∧
    Fits opcode.signature instruction.operands ∧
    ∃ mnemonic, Opcode.ofMnemonic? mnemonic = some opcode ∧
      words = mnemonic :: instruction.operands.map Operand.source
  noHeader : words.any isHeader = false

theorem spells_of_instruction {line : Nat} {order : Int} {words : List Text}
    {result : Instruction} (isWord : ∀ word ∈ words, IsWord word)
    (read : instruction line order words = .ok result) :
    result.order = order ∧ Spells words result := by
  unfold instruction at read
  split at read
  · cases read
  · rename_i noHeader
    split at read
    · cases read
    · rename_i mnemonic arguments
      split at read
      · cases read
      · rename_i opcode known
        split at read
        · cases read
        · rename_i same
          obtain ⟨operands, found, same'⟩ := Chain.bind_eq_ok.mp read
          cases same'
          obtain ⟨fits, rfl⟩ := (operands_eq_ok_iff (Decidable.not_not.mp same)
            fun word member => isWord word (List.mem_cons_of_mem mnemonic member)).mp found
          exact ⟨rfl, ⟨opcode, rfl, fits, mnemonic, known, rfl⟩, by simpa using noHeader⟩

theorem instruction_of_spells {line : Nat} {words : List Text} {result : Instruction}
    (isWord : ∀ word ∈ words, IsWord word) (spells : Spells words result) :
    instruction line result.order words = .ok result := by
  obtain ⟨order, own, operands⟩ := result
  obtain ⟨⟨opcode, rfl, fits, mnemonic, known, rfl⟩, noHeader⟩ := spells
  have same : (operands.map Operand.source).length = opcode.signature.length := by
    rw [List.length_map, fits.length_eq]
  have found : Source.operands line opcode.signature (operands.map Operand.source) =
      .ok operands :=
    (operands_eq_ok_iff same fun word member =>
      isWord word (List.mem_cons_of_mem mnemonic member)).mpr ⟨fits, rfl⟩
  rw [instruction]
  simp [noHeader, known, same, found]

/-- The instructions that lines spell, one after the other, with keys from a first one
on. -/
inductive SpellsLines : Int → List (Nat × List Text) → List Instruction → Prop where
  | nil {order : Int} : SpellsLines order [] []
  | cons {line : Nat} {words : List Text} {lines : List (Nat × List Text)}
      {instruction : Instruction} {others : List Instruction} {order : Int}
      (key : instruction.order = order) (spells : Spells words instruction)
      (later : SpellsLines (order + 1) lines others) :
      SpellsLines order ((line, words) :: lines) (instruction :: others)

theorem instructions_eq_ok_iff {order : Int} {lines : List (Nat × List Text)}
    {records : List Instruction} (isWord : ∀ entry ∈ lines, ∀ word ∈ entry.2, IsWord word) :
    instructions order lines = .ok records ↔ SpellsLines order lines records := by
  induction lines generalizing order records with
  | nil =>
    constructor
    · intro read
      cases read
      exact .nil
    · intro spells
      cases spells
      rfl
  | cons entry lines ih =>
    obtain ⟨line, words⟩ := entry
    have isFirst := isWord (line, words) List.mem_cons_self
    have isLater := fun other member => isWord other (List.mem_cons_of_mem (line, words) member)
    constructor
    · intro read
      obtain ⟨first, found, read⟩ := Chain.bind_eq_ok.mp read
      obtain ⟨others, later, same⟩ := Chain.bind_eq_ok.mp read
      cases same
      obtain ⟨key, spells⟩ := spells_of_instruction isFirst found
      exact .cons key spells ((ih isLater).mp later)
    · intro spells
      cases spells with
      | cons key spells later =>
        subst key
        simp only [instructions, instruction_of_spells isFirst spells,
          (ih isLater).mpr later, Chain.bind_ok, Chain.pure_eq_ok]

/-- A text is read when its first line with words is the header alone and every other
one spells an instruction. -/
theorem assemble_eq_ok_iff {text : Text} {records : List Instruction} :
    assemble text = .ok records ↔
      ∃ line header lines, wordedLines text = (line, [header]) :: lines ∧
        isHeader header = true ∧ SpellsLines 1 lines records := by
  have isWord := @isWord_of_mem_wordedLines text
  rw [assemble]
  split
  · rename_i none
    simp [none, failAt]
  · rename_i line words lines worded
    rw [worded] at isWord ⊢
    have reads := @instructions_eq_ok_iff 1 lines records fun entry member =>
      isWord (List.mem_cons_of_mem _ member)
    split
    · rename_i header
      split
      · rename_i isHeader
        rw [reads]
        constructor
        · exact fun spells => ⟨line, header, lines, rfl, isHeader, spells⟩
        · rintro ⟨_, _, _, same, _, spells⟩
          cases same
          exact spells
      · rename_i other
        simp only [failAt, reduceCtorEq, false_iff]
        rintro ⟨_, _, _, same, isHeader, _⟩
        cases same
        exact other isHeader
    · rename_i other
      simp only [failAt, reduceCtorEq, false_iff]
      rintro ⟨_, header, _, same, _⟩
      cases same
      exact other header rfl

end Source

/-! ## Assembled instructions -/

/-- The instruction is written as the instruction set has it: with the mnemonic of its
opcode and operands that fit. -/
def Instruction.Proper (instruction : Instruction) : Prop :=
  ∃ opcode : Opcode, instruction.mnemonic = opcode.mnemonic.toList ∧
    Fits opcode.signature instruction.operands

theorem Source.SpellsLines.keyed {order : Int} {lines : List (Nat × List Text)}
    {records : List Instruction} (spells : SpellsLines order lines records) :
    Keyed order records := by
  induction spells with
  | nil => exact .nil
  | cons key _ _ ih => exact .cons key ih

theorem Source.SpellsLines.proper {order : Int} {lines : List (Nat × List Text)}
    {records : List Instruction} (spells : SpellsLines order lines records) :
    ∀ instruction ∈ records, instruction.Proper := by
  induction spells with
  | nil => exact fun instruction member => absurd member List.not_mem_nil
  | cons _ spells _ ih =>
    intro instruction member
    rcases List.mem_cons.mp member with rfl | member
    · obtain ⟨opcode, own, fits, _⟩ := spells.opcode
      exact ⟨opcode, own, fits⟩
    · exact ih instruction member

/-- The instructions of a source text have consecutive keys and are proper. -/
theorem keyed_and_proper_of_assemble {text : Text} {records : List Instruction}
    (assembled : assemble text = .ok records) :
    Keyed 1 records ∧ ∀ instruction ∈ records, instruction.Proper := by
  obtain ⟨_, _, _, _, _, spells⟩ := assemble_eq_ok_iff.mp assembled
  exact ⟨spells.keyed, spells.proper⟩

end IPPcode24
