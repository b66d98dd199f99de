import IPPcode24.Proofs.RoundTrip

/-!
# Lines that mislead

Records can hold what source text cannot, and the line of such a record may be read as
something else than the record. There are four ways: a word of the line is no word, the
capitals of an unknown mnemonic are a known one, an operand has a class that its slot does
not accept, or a variable has a text that is none. A program comes back from its rendering,
if it comes back at all, exactly when no line misleads.
-/

namespace IPPcode24

open Source

/-- The line of the instruction does not say what the instruction is. -/
inductive Instruction.Misleading (instruction : Instruction) : Prop where
  | word {word : Text} (member : word ∈ instruction.written) (broken : ¬ IsWord word)
  | mnemonic {opcode : Opcode} (unknown : instruction.opcode? = none)
      (known : Opcode.ofMnemonic? (Text.capitals instruction.mnemonic) = some opcode)
  | operandClass {opcode : Opcode} (known : instruction.opcode? = some opcode)
      (refused : ¬ Fill opcode.signature instruction.operands)
  | name {operand : Operand} (member : operand ∈ instruction.operands)
      (isVar : operand.operandClass = .var) (unnamed : variableOf? operand.text = none)

/-- The instructions are the others with consecutive keys: position by position they have the
same opcode, or none, and the same operands. -/
structure Renumbers (again instructions : List Instruction) : Prop where
  keys : Keyed 1 again
  same : List.Forall₂ (fun renumbered instruction =>
    renumbered.opcode? = instruction.opcode? ∧ renumbered.operands = instruction.operands)
    again instructions

/-! ## Writable instructions -/

section Writable

variable {instruction : Instruction} {opcode : Opcode}

theorem Instruction.Writable.not_misleading (writable : instruction.Writable opcode) :
    ¬ instruction.Misleading := by
  intro misleading
  cases misleading with
  | word member broken =>
    refine broken (isWord_of_mem_wordsOf writable _ ?_)
    rwa [Instruction.written, Opcode.capitals_of_ofMnemonic? writable.known] at member
  | mnemonic unknown known => cases writable.known.symm.trans unknown
  | operandClass known refused =>
    obtain rfl := Option.some.inj (writable.known.symm.trans known)
    exact refused writable.fill
  | @name operand member isVar unnamed =>
    have named := variableOf?_eq_some_iff.mpr
      ⟨(Operand.eq_mk_iff .var rfl).mpr ⟨isVar, rfl⟩, writable.operands operand member⟩
    have bare : operand.source = operand.text := by rw [Operand.source, isVar]
    rw [bare, unnamed] at named
    cases named

theorem Instruction.Writable.of_same {other : Instruction} (writable : instruction.Writable opcode)
    (opcodes : instruction.opcode? = other.opcode?)
    (operands : instruction.operands = other.operands) : other.Writable opcode :=
  ⟨opcodes ▸ writable.known, operands ▸ writable.count, operands ▸ writable.fill,
    operands ▸ writable.operands⟩

end Writable

/-! ## Operands with the same spelling -/

section Operands

variable {operand result : Operand}

theorem Operand.eq_of_literal {kind other : Kind} (isLiteral : operand.operandClass = .literal kind)
    (isLiteralToo : result.operandClass = .literal other) (same : result.source = operand.source) :
    result = operand := by
  obtain ⟨_, text⟩ := operand
  obtain ⟨_, textToo⟩ := result
  subst isLiteral isLiteralToo
  have cut := Text.cut_append kind.isWord_name.2 text
  have cutToo := Text.cut_append other.isWord_name.2 textToo
  change other.name.toList ++ '@' :: textToo = kind.name.toList ++ '@' :: text at same
  rw [same, cut] at cutToo
  obtain ⟨names, rfl⟩ := Prod.mk.inj (Option.some.inj cutToo)
  obtain rfl : kind = other :=
    Option.some.inj ((Kind.ofName?_eq_some_iff.mpr rfl).symm.trans
      (Kind.ofName?_eq_some_iff.mpr names))
  rfl

/-- An operand that is written like a writable one is writable itself, if the same slot accepts
both and the operand is not a variable without a name. -/
theorem Operand.Writable.of_source {slot : Slot} (writable : result.Writable)
    (accepted : slot.accepts result.operandClass = true)
    (acceptedToo : slot.accepts operand.operandClass = true)
    (same : result.source = operand.source)
    (named : operand.operandClass = .var → variableOf? operand.text ≠ none) : operand.Writable := by
  have bare {own : OperandClass} (notLiteral : own.isLiteral = false)
      (first : result.operandClass = own) (second : operand.operandClass = own) :
      operand.Writable := by
    have result_eq := (Operand.eq_mk_iff own notLiteral).mpr ⟨first, same⟩
    have operand_eq := (Operand.eq_mk_iff own notLiteral).mpr ⟨second, rfl⟩
    rwa [operand_eq, ← result_eq]
  cases slot with
  | var =>
    simp only [Slot.accepts, decide_eq_true_eq] at accepted acceptedToo
    exact bare rfl accepted acceptedToo
  | label =>
    simp only [Slot.accepts, decide_eq_true_eq] at accepted acceptedToo
    exact bare rfl accepted acceptedToo
  | type =>
    simp only [Slot.accepts, decide_eq_true_eq] at accepted acceptedToo
    exact bare rfl accepted acceptedToo
  | symbol =>
    simp only [Slot.accepts, OperandClass.isSymbol, Bool.or_eq_true, decide_eq_true_eq]
      at accepted acceptedToo
    rcases acceptedToo with isVar | isLiteral
    · cases found : variableOf? operand.text with
      | none => exact absurd found (named isVar)
      | some read =>
        obtain ⟨spelled, spells⟩ := variableOf?_eq_some_iff.mp found
        have operand_eq := (Operand.eq_mk_iff .var rfl).mpr ⟨isVar, rfl⟩
        have bareSource : operand.source = operand.text := by rw [Operand.source, isVar]
        rwa [operand_eq, bareSource, ← spelled]
    · cases own : operand.operandClass with
      | var | label | type => rw [own] at isLiteral; cases isLiteral
      | literal kind =>
        rcases accepted with resultVar | resultLiteral
        · -- no literal is written like a variable
          have result_eq := (Operand.eq_mk_iff .var rfl).mpr ⟨resultVar, rfl⟩
          have found := variableOf?_eq_some_iff.mpr ⟨result_eq, writable⟩
          have noVariable := variableOf?_constant kind operand.text
          rw [same, Operand.source, own] at found
          cases noVariable.symm.trans found
        · cases ownToo : result.operandClass with
          | var | label | type => rw [ownToo] at resultLiteral; cases resultLiteral
          | literal other => rwa [← Operand.eq_of_literal own ownToo same]

theorem writable_of_fits {slots : List Slot} {operands results : List Operand}
    (fits : Fits slots results) (fill : Fill slots operands)
    (same : results.map Operand.source = operands.map Operand.source)
    (named : ∀ operand ∈ operands, operand.operandClass = .var →
      variableOf? operand.text ≠ none) :
    ∀ operand ∈ operands, operand.Writable := by
  induction fits generalizing operands with
  | nil =>
    rw [List.map_eq_nil_iff.mp same.symm]
    exact nofun
  | @cons slot slots result results accepted writable _ ih =>
    obtain ⟨operand, others, rfl, spelled, later⟩ := List.map_eq_cons_iff.mp same.symm
    obtain ⟨acceptedToo, fill⟩ := fill_cons.mp fill
    intro member inside
    rcases List.mem_cons.mp inside with rfl | inside
    · exact writable.of_source accepted acceptedToo spelled.symm (named _ List.mem_cons_self)
    · exact ih fill later.symm (fun other among => named other (List.mem_cons_of_mem _ among))
        member inside

end Operands

/-! ## Lines -/

theorem writable_of_spells {instruction result : Instruction}
    (spells : Spells instruction.written result) (honest : ¬ instruction.Misleading) :
    ∃ opcode, instruction.Writable opcode := by
  obtain ⟨opcode, _, fits, mnemonic, known, words⟩ := spells.opcode
  obtain ⟨rfl, same⟩ := List.cons.inj words
  have knownToo : instruction.opcode? = some opcode := by
    cases own : instruction.opcode? with
    | none => exact absurd (.mnemonic own known) honest
    | some other =>
      have capitals := Opcode.capitals_of_ofMnemonic? own
      rw [capitals, other.ofMnemonic?_mnemonic] at known
      exact known
  have fill : Fill opcode.signature instruction.operands := by
    by_contra refused
    exact honest (.operandClass knownToo refused)
  have count : instruction.operands.length = opcode.signature.length := by
    rw [← fits.length_eq, ← List.length_map (f := Operand.source), same, List.length_map]
  refine ⟨opcode, knownToo, count, fill, writable_of_fits fits fill same.symm ?_⟩
  intro operand member isVar unnamed
  exact honest (.name member isVar unnamed)

theorem exists_of_forall₂ {α β : Type} {R : α → β → Prop} {as : List α} {bs : List β}
    (related : List.Forall₂ R as bs) {b : β} (member : b ∈ bs) : ∃ a ∈ as, R a b := by
  induction related with
  | nil => cases member
  | cons first _ ih =>
    rcases List.mem_cons.mp member with rfl | member
    · exact ⟨_, List.mem_cons_self, first⟩
    · obtain ⟨a, among, relation⟩ := ih member
      exact ⟨a, List.mem_cons_of_mem _ among, relation⟩

theorem forall₂_of_spellsLines {instructions again : List Instruction}
    (words : ∀ instruction ∈ instructions, ∀ word ∈ instruction.written, IsWord word)
    (number : Nat) (order : Int)
    (spells : SpellsLines order (numbered number (Text.lines (instructions.flatMap
      fun instruction => instruction.source ++ ['\n']))) again) :
    List.Forall₂ (fun result instruction => Spells instruction.written result) again
      instructions := by
  induction instructions generalizing number order again with
  | nil =>
    cases spells
    exact .nil
  | cons instruction rest ih =>
    have isWord := words instruction List.mem_cons_self
    have occupied : instruction.written ≠ [] := List.cons_ne_nil _ _
    rw [List.flatMap_cons, instruction.source_eq_joined_written, List.append_assoc,
      List.singleton_append, lines_append (newline_not_mem_joined isWord),
      numbered_joined occupied isWord] at spells
    cases spells with
    | cons _ first later =>
      exact .cons first (ih (fun other member => words other (List.mem_cons_of_mem _ member))
        (number + 1) (order + 1) later)

theorem renumbers_canonical (instructions : List Instruction) :
    Renumbers (canonical 1 instructions) instructions := by
  have each (first : Int) : Keyed first (canonical first instructions) ∧
      List.Forall₂ (fun renumbered instruction =>
        renumbered.opcode? = instruction.opcode? ∧ renumbered.operands = instruction.operands)
        (canonical first instructions) instructions := by
    induction instructions generalizing first with
    | nil => exact ⟨.nil, .nil⟩
    | cons instruction rest ih =>
      obtain ⟨keyed, same⟩ := ih (first + 1)
      refine ⟨.cons rfl keyed, .cons ⟨?_, rfl⟩ same⟩
      simp only [Instruction.opcode?, Instruction.canonicalMnemonic]
      split
      · rename_i opcode known
        rw [opcode.ofMnemonic?_mnemonic, ← known]
      · rfl
  exact ⟨(each 1).1, (each 1).2⟩

/-- If a rendered program can be read at all, then what is read are its instructions with new
keys exactly when no line of the program misleads. -/
theorem renumbers_iff_not_misleading {records again : List Instruction} {program : Program}
    (built : Program.build records = .ok program)
    (assembled : assemble program.render = .ok again) :
    Renumbers again program.instructions ↔ ∀ record ∈ records, ¬ record.Misleading := by
  have member {record : Instruction} : record ∈ program.instructions ↔ record ∈ records := by
    rw [(Program.build_eq_ok built).1]
    exact Program.mem_sorted
  constructor
  · rintro ⟨_, same⟩ record among
    obtain ⟨renumbered, read, opcodes, operands⟩ :=
      exists_of_forall₂ same (member.mpr among)
    obtain ⟨opcode, writable, _⟩ :=
      ((keyed_and_proper_of_assemble assembled).2 renumbered read).writable
    exact (writable.of_same opcodes operands).not_misleading
  · intro honest
    obtain ⟨_, _, _, worded, _, spells⟩ := assemble_eq_ok_iff.mp assembled
    rw [wordedLines_render] at worded
    obtain ⟨_, rfl⟩ := List.cons.inj worded
    have words : ∀ instruction ∈ program.instructions, ∀ word ∈ instruction.written,
        IsWord word := by
      intro instruction among word inside
      by_contra broken
      exact honest instruction (member.mp among) (.word inside broken)
    have each := forall₂_of_spellsLines words 2 1 spells
    have writable : ∀ instruction ∈ program.instructions, ∃ opcode,
        instruction.Writable opcode := by
      intro instruction among
      obtain ⟨result, _, line⟩ := exists_of_forall₂ each among
      exact writable_of_spells line (honest instruction (member.mp among))
    obtain rfl := Except.ok.inj ((assemble_render writable).symm.trans assembled)
    exact renumbers_canonical program.instructions

def textWrite (text : String) : Instruction :=
  ⟨7, "write".toList, [⟨.literal .string, text.toList⟩]⟩

/-- A plain text is read back, and a text with a number sign comes back without its end. -/
theorem number_sign_cuts_text :
    (∃ program again, Program.build [textWrite "ab"] = .ok program ∧
      assemble program.render = .ok again ∧ Renumbers again program.instructions) ∧
    ∃ program, Program.build [textWrite "a#b"] = .ok program ∧
      assemble program.render = .ok [⟨1, "WRITE".toList, [⟨.literal .string, ['a']⟩]⟩] ∧
      ¬ Renumbers [⟨1, "WRITE".toList, [⟨.literal .string, ['a']⟩]⟩] program.instructions := by
  constructor
  · have built : Program.build [textWrite "ab"] = .ok ⟨[textWrite "ab"], []⟩ := by decide +kernel
    have word : IsWord "ab".toList := by decide
    have fits : Fits Opcode.write.signature [⟨.literal .string, "ab".toList⟩] :=
      .cons rfl ⟨by decide, word.plain⟩ .nil
    have writable : (textWrite "ab").Writable .write :=
      ⟨by decide, fits.length_eq, fits.fill, fits.writable⟩
    have assembled : assemble (Program.render ⟨[textWrite "ab"], []⟩) =
        .ok [⟨1, "WRITE".toList, [⟨.literal .string, "ab".toList⟩]⟩] := by decide +kernel
    refine ⟨_, _, built, assembled, (renumbers_iff_not_misleading built assembled).mpr ?_⟩
    intro record member
    rw [List.mem_singleton.mp member]
    exact writable.not_misleading
  · have built : Program.build [textWrite "a#b"] = .ok ⟨[textWrite "a#b"], []⟩ := by decide +kernel
    have assembled : assemble (Program.render ⟨[textWrite "a#b"], []⟩) =
        .ok [⟨1, "WRITE".toList, [⟨.literal .string, ['a']⟩]⟩] := by decide +kernel
    refine ⟨_, built, assembled, fun renumbers => ?_⟩
    have honest := (renumbers_iff_not_misleading built assembled).mp renumbers
    exact honest _ List.mem_cons_self
      (.word (List.mem_cons_of_mem _ List.mem_cons_self) (by decide))

/-- An unknown mnemonic whose capitals are those of a subtraction. -/
def longS : Instruction :=
  ⟨1, "ſub".toList, [⟨.var, "GF@x".toList⟩, ⟨.literal .int, ['5']⟩, ⟨.literal .int, ['3']⟩]⟩

/-- The unknown instruction comes back as a subtraction. -/
theorem long_s_comes_back_as_sub :
    ∃ program again, Program.build [longS] = .ok program ∧
      assemble program.render = .ok again ∧ ¬ Renumbers again program.instructions := by
  refine ⟨⟨[longS], []⟩, [{ longS with mnemonic := "SUB".toList }], by decide +kernel,
    by decide +kernel, ?_⟩
  rintro ⟨_, same⟩
  cases same with
  | cons first _ => exact absurd first.1 (by decide)

end IPPcode24
