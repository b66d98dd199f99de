import IPPcode24.Proofs.Assembling
import Mathlib.Data.List.Forall2

/-!
# The grammar of source texts

The source texts of a list of records are described without reference to how they are read:
lines between line feeds, a comment behind a number sign, words between blanks, first the
header and then one line for each record, its words the mnemonic in any letter case and the
operands as they are written. A text is assembled into records exactly if it is a source text
of them.
-/

namespace IPPcode24

open Source

/-! ## Lines and words -/

/-- The text has the words, with blanks between them and any blanks around them. -/
inductive Spaced : Text → List Text → Prop where
  | nil : Spaced [] []
  | blank {c : Char} {rest : Text} {words : List Text} (blank : Text.isBlank c = true)
      (later : Spaced rest words) : Spaced (c :: rest) words
  | word {word rest : Text} {words : List Text} (occupied : word ≠ [])
      (solid : ∀ c ∈ word, Text.isBlank c = false)
      (ends : ∀ c, rest.head? = some c → Text.isBlank c = true) (later : Spaced rest words) :
      Spaced (word ++ rest) (word :: words)

/-- The line has the words and behind them a comment or none. -/
inductive HasWords : Text → List Text → Prop where
  | bare {code : Text} {words : List Text} (spaced : Spaced code words) (unmarked : '#' ∉ code) :
      HasWords code words
  | commented {code comment : Text} {words : List Text} (spaced : Spaced code words)
      (unmarked : '#' ∉ code) : HasWords (code ++ '#' :: comment) words

/-- The text has the lines with line feeds between them. -/
inductive HasLines : Text → List Text → Prop where
  | last {line : Text} (unbroken : '\n' ∉ line) : HasLines line [line]
  | line {line rest : Text} {lines : List Text} (unbroken : '\n' ∉ line)
      (later : HasLines rest lines) : HasLines (line ++ '\n' :: rest) (line :: lines)

/-- The words of each line of the text that has any. -/
def HasWordLines (text : Text) (worded : List (List Text)) : Prop :=
  ∃ lines each, HasLines text lines ∧ List.Forall₂ HasWords lines each ∧
    worded = each.filter (· ≠ [])

section Words

theorem words_of_spaced {text : Text} {words : List Text} (spaced : Spaced text words) :
    Text.words text = words := by
  induction spaced with
  | nil => rfl
  | @blank c rest words blank _ ih =>
    rw [← ih, Text.words, Text.splitWords_cons, if_pos blank]
    rfl
  | @word word rest words occupied solid ends _ ih =>
    cases rest with
    | nil =>
      rw [List.append_nil, ← ih]
      exact Text.words_of_solid occupied solid
    | cons c rest =>
      have blank := ends c rfl
      have skips : Text.words (c :: rest) = Text.words rest := by
        rw [Text.words, Text.splitWords_cons, if_pos blank]
        rfl
      rw [Text.words_append occupied solid blank, ← ih, skips]

/-- A text that goes on with a blank or ends has the word before that, if there is one. -/
theorem spaced_append {word rest : Text} {others : List Text}
    (solid : ∀ c ∈ word, Text.isBlank c = false)
    (ends : ∀ c, rest.head? = some c → Text.isBlank c = true) (later : Spaced rest others) :
    Spaced (word ++ rest) (if word = [] then others else word :: others) := by
  by_cases empty : word = []
  · rw [if_pos empty, empty]
    exact later
  · rw [if_neg empty]
    exact .word empty solid ends later

theorem words_eq_ite (text : Text) :
    Text.words text =
      if (Text.splitWords text).1 = [] then (Text.splitWords text).2
      else (Text.splitWords text).1 :: (Text.splitWords text).2 := rfl

/-- What follows the first word of a text has the other words. -/
theorem exists_spaced_rest (text : Text) :
    ∃ rest, text = (Text.splitWords text).1 ++ rest ∧
      (∀ c ∈ (Text.splitWords text).1, Text.isBlank c = false) ∧
      (∀ c, rest.head? = some c → Text.isBlank c = true) ∧
      Spaced rest (Text.splitWords text).2 := by
  induction text with
  | nil => exact ⟨[], rfl, nofun, nofun, .nil⟩
  | cons c text ih =>
    obtain ⟨rest, split, solid, ends, later⟩ := ih
    rw [Text.splitWords_cons]
    by_cases blank : Text.isBlank c = true
    · rw [if_pos blank]
      have spaced := spaced_append solid ends later
      rw [← split, ← words_eq_ite] at spaced
      refine ⟨c :: text, rfl, nofun, ?_, .blank blank spaced⟩
      intro d first
      cases first
      exact blank
    · rw [if_neg blank]
      refine ⟨rest, congrArg (c :: ·) split, ?_, ends, later⟩
      intro d member
      rcases List.mem_cons.mp member with rfl | inWord
      · exact Bool.eq_false_of_not_eq_true blank
      · exact solid d inWord

/-- The words of a text are the only ones that it has. -/
theorem words_eq_iff {text : Text} {words : List Text} :
    Text.words text = words ↔ Spaced text words := by
  constructor
  · rintro rfl
    obtain ⟨rest, split, solid, ends, later⟩ := exists_spaced_rest text
    have spaced := spaced_append solid ends later
    rwa [← split, ← words_eq_ite] at spaced
  · exact words_of_spaced

/-- The words of a line are those of the code before its comment. -/
theorem wordsOfLine_eq_iff {line : Text} {words : List Text} :
    wordsOfLine line = words ↔ HasWords line words := by
  rw [wordsOfLine, words_eq_iff]
  constructor
  · intro spaced
    obtain ⟨unmarked, whole | ⟨comment, split⟩⟩ := Text.before_cases '#' line
    · rw [whole] at spaced unmarked
      exact .bare spaced unmarked
    · rw [split]
      exact .commented spaced unmarked
  · intro has
    cases has with
    | bare spaced unmarked => rwa [Text.before_of_not_mem unmarked]
    | commented spaced unmarked => rwa [Text.before_append unmarked]

theorem HasLines.cons {c : Char} {text line : Text} {lines : List Text} (other : c ≠ '\n')
    (has : HasLines text (line :: lines)) : HasLines (c :: text) ((c :: line) :: lines) := by
  have unbroken {piece : Text} (absent : '\n' ∉ piece) : '\n' ∉ c :: piece := by
    intro member
    rcases List.mem_cons.mp member with same | later
    · exact other same.symm
    · exact absent later
  cases has with
  | last absent => exact .last (unbroken absent)
  | line absent later => exact .line (unbroken absent) later

theorem hasLines_pieces (text : Text) : HasLines text (Text.pieces '\n' text) := by
  induction text with
  | nil => exact .last List.not_mem_nil
  | cons c rest ih =>
    rw [Text.pieces]
    by_cases broken : c = '\n'
    · rw [if_pos broken, broken]
      exact .line List.not_mem_nil ih
    · rw [if_neg broken]
      cases split : Text.pieces '\n' rest with
      | nil =>
        rw [split] at ih
        cases ih
      | cons line lines =>
        rw [split] at ih
        exact ih.cons broken

/-- The lines of a text are the only ones that it has. -/
theorem lines_eq_iff {text : Text} {lines : List Text} :
    Text.lines text = lines ↔ HasLines text lines := by
  constructor
  · rintro rfl
    exact hasLines_pieces text
  · intro has
    induction has with
    | last unbroken => exact Text.pieces_of_not_mem unbroken
    | line unbroken _ ih =>
      rw [Text.lines, Text.pieces_append unbroken]
      exact congrArg (_ :: ·) ih

/-- The lines with words are numbered with their words. -/
theorem map_numbered (number : Nat) (lines : List Text) :
    (numbered number lines).map Prod.snd = (lines.map wordsOfLine).filter (· ≠ []) := by
  induction lines generalizing number with
  | nil => rfl
  | cons line rest ih =>
    rw [List.map_cons]
    by_cases wordless : wordsOfLine line = []
    · rw [numbered_cons_of_wordless wordless, ih, wordless, List.filter_cons_of_neg (by simp)]
    · rw [numbered_cons_of_words rfl wordless, List.map_cons, ih,
        List.filter_cons_of_pos (by simpa using wordless)]

theorem map_wordsOfLine_eq_iff {lines : List Text} {each : List (List Text)} :
    lines.map wordsOfLine = each ↔ List.Forall₂ HasWords lines each := by
  rw [← List.forall₂_eq_eq_eq, List.forall₂_map_left_iff]
  simp only [wordsOfLine_eq_iff]

theorem wordedLines_eq_iff {text : Text} {worded : List (List Text)} :
    (wordedLines text).map Prod.snd = worded ↔ HasWordLines text worded := by
  rw [wordedLines, map_numbered]
  constructor
  · rintro rfl
    exact ⟨Text.lines text, _, lines_eq_iff.mp rfl, map_wordsOfLine_eq_iff.mp rfl, rfl⟩
  · rintro ⟨lines, each, has, words, rfl⟩
    rw [lines_eq_iff.mpr has, map_wordsOfLine_eq_iff.mpr words]

end Words

/-! ## Operands -/

/-- A name of letters, digits and marks that does not begin with a digit. -/
structure Identifier (name : Text) : Prop where
  occupied : name ≠ []
  characters : ∀ c ∈ name, c.isAlpha = true ∨ c.isDigit = true ∨ c ∈ "_-$&%*!?".toList
  first : ∀ c, name.head? = some c → c.isDigit = false

/-- The text begins with three decimal digits. -/
def ThreeDigits (text : Text) : Prop :=
  ∃ a b c rest, text = a :: b :: c :: rest ∧ a.isDigit = true ∧ b.isDigit = true ∧ c.isDigit = true

/-- Three decimal digits follow every backslash. -/
def Escaped (text : Text) : Prop :=
  ∀ front rest, text = front ++ '\\' :: rest → ThreeDigits rest

/-- The operands that may be written in a slot. -/
inductive Legal : Slot → Operand → Prop where
  | var {slot : Slot} {tag : FrameTag} {name : Text} (takes : slot = .var ∨ slot = .symbol)
      (identifier : Identifier name) : Legal slot ⟨.var, tag.name.toList ++ '@' :: name⟩
  | constant {kind : Kind} {text : Text} {value : Value}
      (decoded : Literal.decode kind text = .ok (some value))
      (escaped : kind = .string → Escaped text) : Legal .symbol ⟨.literal kind, text⟩
  | label {name : Text} (identifier : Identifier name) : Legal .label ⟨.label, name⟩
  | type (kind : Kind) : Legal .type ⟨.type, kind.name.toList⟩

section Operands

theorem isDigit_of_beginsName {c : Char} (begins : beginsName c = true) : c.isDigit = false := by
  have marks : "_-$&%*!?".toList.all (fun c => !c.isDigit) = true := by decide
  rcases Bool.or_eq_true_iff.mp begins with alpha | mark
  · rw [Bool.eq_false_iff, ne_eq, isDigit_iff]
    rcases Bool.or_eq_true_iff.mp alpha with upper | lower
    · have range := isUpper_iff.mp upper
      omega
    · have range := isLower_iff.mp lower
      omega
  · simpa using List.all_eq_true.mp marks c (of_decide_eq_true mark)

theorem beginsName_iff {c : Char} :
    beginsName c = true ↔ c.isAlpha = true ∨ c ∈ "_-$&%*!?".toList := by
  rw [beginsName, Bool.or_eq_true, decide_eq_true_eq]

theorem continuesName_iff {c : Char} :
    continuesName c = true ↔ c.isAlpha = true ∨ c.isDigit = true ∨ c ∈ "_-$&%*!?".toList := by
  rw [continuesName, Bool.or_eq_true, beginsName_iff]
  tauto

theorem isName_iff {name : Text} : isName name = true ↔ Identifier name := by
  cases name with
  | nil => exact ⟨nofun, fun identifier => absurd rfl identifier.occupied⟩
  | cons c rest =>
    rw [isName, Bool.and_eq_true, List.all_eq_true]
    constructor
    · rintro ⟨begins, continues⟩
      refine ⟨List.cons_ne_nil c rest, ?_, ?_⟩
      · intro d member
        rw [← continuesName_iff]
        rcases List.mem_cons.mp member with rfl | later
        · exact Bool.or_eq_true_iff.mpr (Or.inl begins)
        · exact continues d later
      · intro d first
        cases first
        exact isDigit_of_beginsName begins
    · rintro ⟨_, characters, first⟩
      constructor
      · rcases Bool.or_eq_true_iff.mp (continuesName_iff.mpr (characters c List.mem_cons_self))
          with begins | digit
        · exact begins
        · rw [first c rfl] at digit
          cases digit
      · intro d member
        exact continuesName_iff.mpr (characters d (List.mem_cons_of_mem c member))

theorem escaped_cons_iff {c : Char} {text : Text} :
    Escaped (c :: text) ↔ (c = '\\' → ThreeDigits text) ∧ Escaped text := by
  constructor
  · intro escaped
    constructor
    · rintro rfl
      exact escaped [] text rfl
    · intro front rest split
      exact escaped (c :: front) rest (congrArg (c :: ·) split)
  · rintro ⟨first, later⟩ front rest split
    cases front with
    | nil =>
      cases split
      exact first rfl
    | cons d front =>
      cases split
      exact later front rest rfl

theorem isSome_escaped {a b c : Char} :
    (Text.escaped a b c).isSome = true ↔
      a.isDigit = true ∧ b.isDigit = true ∧ c.isDigit = true := by
  rw [Text.escaped, Text.decimalDigit, Text.decimalDigit, Text.decimalDigit]
  cases a.isDigit <;> cases b.isDigit <;> cases c.isDigit <;> simp

theorem ne_backslash_of_isDigit {c : Char} (digit : c.isDigit = true) : c ≠ '\\' := by
  rintro rfl
  cases digit

theorem wellEscaped_iff {text : Text} : Text.wellEscaped text = true ↔ Escaped text := by
  induction text using Text.wellEscaped.induct with
  | case1 => exact ⟨fun _ front rest split => by simp at split, fun _ => rfl⟩
  | case2 a b c rest ih =>
    rw [Text.wellEscaped, Bool.and_eq_true, isSome_escaped, ih, escaped_cons_iff]
    constructor
    · rintro ⟨⟨first, second, third⟩, escaped⟩
      refine ⟨fun _ => ⟨a, b, c, rest, rfl, first, second, third⟩, ?_⟩
      simp only [escaped_cons_iff, ne_backslash_of_isDigit first,
        ne_backslash_of_isDigit second, ne_backslash_of_isDigit third]
      exact ⟨nofun, nofun, nofun, escaped⟩
    · rintro ⟨digits, escaped⟩
      obtain ⟨_, _, _, _, same, first, second, third⟩ := digits rfl
      cases same
      simp only [escaped_cons_iff] at escaped
      exact ⟨⟨first, second, third⟩, escaped.2.2.2⟩
  | case3 c rest short ih =>
    rw [Text.wellEscaped, Bool.and_eq_true, decide_eq_true_eq, ih, escaped_cons_iff]
    · constructor
      · rintro ⟨plain, escaped⟩
        exact ⟨fun same => absurd same plain, escaped⟩
      · rintro ⟨digits, escaped⟩
        refine ⟨?_, escaped⟩
        intro same
        obtain ⟨x, y, z, after, rfl, _⟩ := digits same
        exact short x y z after same rfl
    · exact short

/-- The text that follows the type of a literal on a line is only told apart by the type. -/
theorem writable_literal_iff {kind : Kind} {text : Text} (plain : ∀ c ∈ text, IsPlain c) :
    Operand.Writable ⟨.literal kind, text⟩ ↔
      (∃ value, Literal.decode kind text = .ok (some value)) ∧
        (kind = .string → Escaped text) := by
  cases kind with
  | string =>
    rw [← wellEscaped_iff]
    exact ⟨fun writable => ⟨⟨_, rfl⟩, fun _ => writable.1⟩,
      fun ⟨_, escaped⟩ => ⟨escaped rfl, plain⟩⟩
  | int | bool | float | nil =>
    exact ⟨fun writable => ⟨writable, nofun⟩, fun ⟨decoded, _⟩ => decoded⟩

theorem legal_iff {slot : Slot} {operand : Operand} (isWord : IsWord operand.source) :
    Legal slot operand ↔ slot.accepts operand.operandClass = true ∧ operand.Writable := by
  obtain ⟨operandClass, text⟩ := operand
  have literal {kind : Kind} (isWord : IsWord (Operand.source ⟨.literal kind, text⟩)) :
      ∀ c ∈ text, IsPlain c := by
    intro c inside
    exact isWord.plain c (List.mem_append_right _ (List.mem_cons_of_mem _ inside))
  constructor
  · intro legal
    cases legal with
    | @var _ tag name takes identifier =>
      refine ⟨?_, tag, name, rfl, isName_iff.mpr identifier⟩
      rcases takes with rfl | rfl <;> rfl
    | label identifier => exact ⟨rfl, isName_iff.mpr identifier⟩
    | type kind => exact ⟨rfl, kind, rfl⟩
    | constant decoded escaped =>
      exact ⟨rfl, (writable_literal_iff (literal isWord)).mpr ⟨⟨_, decoded⟩, escaped⟩⟩
  · rintro ⟨accepted, writable⟩
    cases operandClass with
    | var =>
      obtain ⟨tag, name, rfl, named⟩ := writable
      cases slot with
      | var => exact .var (Or.inl rfl) (isName_iff.mp named)
      | symbol => exact .var (Or.inr rfl) (isName_iff.mp named)
      | label | type => cases accepted
    | label =>
      cases slot with
      | label => exact .label (isName_iff.mp writable)
      | var | symbol | type => cases accepted
    | type =>
      obtain ⟨kind, rfl⟩ := writable
      cases slot with
      | type => exact .type kind
      | var | symbol | label => cases accepted
    | literal kind =>
      obtain ⟨⟨value, decoded⟩, escaped⟩ := (writable_literal_iff (literal isWord)).mp writable
      cases slot with
      | symbol => exact .constant decoded escaped
      | var | label | type => cases accepted

end Operands

/-! ## Records -/

/-- The words are a mnemonic in the letters of the record's own one and the operands as they
are written. None of them is a header, the record has the mnemonic of an opcode as the
instruction set has it, and it has operands that are legal in the slots of the opcode. -/
structure Written (words : List Text) (record : Instruction) : Prop where
  spelled : ∃ mnemonic, Text.fold mnemonic = Text.fold record.mnemonic ∧
    words = mnemonic :: record.operands.map Operand.source
  noHeader : ∀ word ∈ words, isHeader word = false
  legal : ∃ opcode : Opcode, record.mnemonic = opcode.mnemonic.toList ∧
    List.Forall₂ Legal opcode.signature record.operands

section Records

theorem fits_iff {slots : List Slot} {operands : List Operand}
    (isWord : ∀ operand ∈ operands, IsWord operand.source) :
    Fits slots operands ↔ List.Forall₂ Legal slots operands := by
  constructor
  · intro fits
    clear isWord
    induction fits with
    | nil => exact .nil
    | cons accepted writable _ ih =>
      exact .cons ((legal_iff writable.isWord_source).mpr ⟨accepted, writable⟩) ih
  · intro legal
    induction legal with
    | nil => exact .nil
    | @cons slot operand _ operands first _ ih =>
      obtain ⟨accepted, writable⟩ := (legal_iff (isWord operand List.mem_cons_self)).mp first
      refine .cons accepted writable (ih ?_)
      intro other member
      exact isWord other (List.mem_cons_of_mem operand member)

theorem spells_iff {words : List Text} {record : Instruction}
    (isWord : ∀ word ∈ words, IsWord word) : Spells words record ↔ Written words record := by
  have areWords {mnemonic : Text} (same : words = mnemonic :: record.operands.map Operand.source) :
      ∀ operand ∈ record.operands, IsWord operand.source := by
    intro operand member
    refine isWord operand.source ?_
    rw [same]
    exact List.mem_cons_of_mem mnemonic (List.mem_map_of_mem member)
  constructor
  · rintro ⟨⟨opcode, canonical, fits, mnemonic, known, same⟩, noHeader⟩
    have letters := sameLetters_iff.mp (Opcode.ofMnemonic?_eq_some_iff.mp known)
    refine ⟨⟨mnemonic, ?_, same⟩, ?_, opcode, canonical, (fits_iff (areWords same)).mp fits⟩
    · rw [canonical, letters]
    · simpa using noHeader
  · rintro ⟨⟨mnemonic, letters, same⟩, noHeader, opcode, canonical, legal⟩
    rw [canonical] at letters
    have known := Opcode.ofMnemonic?_eq_some_iff.mpr (sameLetters_iff.mpr letters.symm)
    refine ⟨⟨opcode, canonical, (fits_iff (areWords same)).mpr legal, mnemonic, known, same⟩, ?_⟩
    simpa using noHeader

theorem keyed_iff {first : Int} {records : List Instruction} :
    Keyed first records ↔
      ∀ (index : Nat) (record : Instruction), records[index]? = some record →
        record.order = first + index := by
  induction records generalizing first with
  | nil => exact ⟨fun _ => nofun, fun _ => .nil⟩
  | cons record records ih =>
    constructor
    · intro keyed index other found
      cases keyed with
      | cons key others =>
        cases index with
        | zero =>
          cases found
          omega
        | succ index =>
          have later := ih.mp others index other found
          omega
    · intro orders
      have key := orders 0 record rfl
      refine .cons (by omega) (ih.mpr ?_)
      intro index other found
      have later := orders (index + 1) other found
      omega

theorem spellsLines_iff {order : Int} {lines : List (Nat × List Text)}
    {records : List Instruction} (isWord : ∀ entry ∈ lines, ∀ word ∈ entry.2, IsWord word) :
    SpellsLines order lines records ↔
      List.Forall₂ Written (lines.map Prod.snd) records ∧ Keyed order records := by
  constructor
  · intro spells
    refine ⟨?_, spells.keyed⟩
    induction spells with
    | nil => exact .nil
    | cons _ first _ ih =>
      refine .cons ((spells_iff (isWord _ List.mem_cons_self)).mp first) (ih ?_)
      intro entry member
      exact isWord entry (List.mem_cons_of_mem _ member)
  · rintro ⟨written, keyed⟩
    induction lines generalizing order records with
    | nil =>
      cases written
      exact .nil
    | cons entry lines ih =>
      cases written with
      | cons first later =>
        cases keyed with
        | cons key others =>
          have laterWords := fun other member => isWord other (List.mem_cons_of_mem entry member)
          exact .cons key ((spells_iff (isWord entry List.mem_cons_self)).mpr first)
            (ih laterWords later others)

end Records

/-- A text is assembled into records exactly if the first line with words has the header alone,
and every other one has, in order, the words of one record each: the record's own mnemonic, in
any letter case, and its operands as they are written, each of them legal in its slot. The
records have the keys one, two, three and so on. -/
theorem assemble_iff_grammar (text : Text) (records : List Instruction) :
    assemble text = .ok records ↔
      ∃ header worded, HasWordLines text ([header] :: worded) ∧ isHeader header = true ∧
        List.Forall₂ Written worded records ∧
        ∀ (index : Nat) (record : Instruction), records[index]? = some record →
          record.order = index + 1 := by
  have isWord := @isWord_of_mem_wordedLines text
  rw [assemble_eq_ok_iff]
  constructor
  · rintro ⟨line, header, lines, has, named, spells⟩
    rw [has] at isWord
    obtain ⟨written, keyed⟩ :=
      (spellsLines_iff fun entry member => isWord (List.mem_cons_of_mem _ member)).mp spells
    refine ⟨header, lines.map Prod.snd, ?_, named, written, ?_⟩
    · rw [← wordedLines_eq_iff, has]
      rfl
    · intro index record found
      have key := keyed_iff.mp keyed index record found
      omega
  · rintro ⟨header, worded, has, named, written, orders⟩
    obtain ⟨first, lines, entries, single, rfl⟩ :=
      List.map_eq_cons_iff.mp (wordedLines_eq_iff.mpr has)
    obtain ⟨line, words⟩ := first
    cases single
    rw [entries] at isWord
    have keyed : Keyed 1 records := by
      refine keyed_iff.mpr ?_
      intro index record found
      have key := orders index record found
      omega
    have spells :=
      (spellsLines_iff fun entry member => isWord (List.mem_cons_of_mem _ member)).mpr
        ⟨written, keyed⟩
    exact ⟨line, header, lines, entries, named, spells⟩

/-- The header and the mnemonic in other letter cases, a comment, a line without words, and a
literal with an escape. -/
example : (assemble " .ippCODE24 # first\n\n\twrite string@a\\035b#c\n".toList).toOption =
    some [⟨1, "WRITE".toList, [⟨.literal .string, "a\\035b".toList⟩]⟩] := by
  decide +kernel

end IPPcode24
