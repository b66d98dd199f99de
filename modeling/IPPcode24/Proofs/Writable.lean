import IPPcode24.Proofs.Divided
import IPPcode24.Proofs.Numerals
import IPPcode24.Proofs.Symbols
import IPPcode24.Source.Word

/-!
# Operands that source text can spell

An operand of a record can have any text. Those that a word of a source text can be are
described here by their class alone, and a slot reads exactly the spellings of the
writable operands that it accepts, each as the operand that it spells.
-/

namespace IPPcode24

open Source

/-- The text of the operand is one that source text has for its class. -/
def Operand.Writable (operand : Operand) : Prop :=
  match operand.operandClass with
  | .var => ∃ (tag : FrameTag) (name : Text),
      operand.text = tag.name.toList ++ '@' :: name ∧ isName name = true
  | .label => isName operand.text = true
  | .type => ∃ kind : Kind, operand.text = kind.name.toList
  | .literal .string => Text.wellEscaped operand.text = true ∧ ∀ c ∈ operand.text, IsPlain c
  | .literal kind => ∃ value, Literal.decode kind operand.text = .ok (some value)

/-! ## Names -/

theorem Kind.ofName?_eq_some_iff {name : Text} {kind : Kind} :
    Kind.ofName? name = some kind ↔ name = kind.name.toList := by
  constructor
  · intro found
    have spelled := List.find?_some (show Kind.all.find? _ = some kind from found)
    exact (beq_iff_eq.mp spelled).symm
  · rintro rfl
    cases kind <;> rfl

theorem FrameTag.ofName?_eq_some_iff {name : Text} {tag : FrameTag} :
    FrameTag.ofName? name = some tag ↔ name = tag.name.toList := by
  constructor
  · intro found
    have spelled := List.find?_some (show FrameTag.all.find? _ = some tag from found)
    exact (beq_iff_eq.mp spelled).symm
  · rintro rfl
    cases tag <;> rfl

theorem Kind.isWord_name (kind : Kind) : IsWord kind.name.toList ∧ '@' ∉ kind.name.toList := by
  cases kind <;> exact ⟨by decide, by decide⟩

theorem FrameTag.isWord_name (tag : FrameTag) :
    IsWord tag.name.toList ∧ '@' ∉ tag.name.toList := by
  cases tag <;> exact ⟨by decide, by decide⟩

/-- A variable is read from its own spelling alone. -/
theorem Variable.eq_source {text : Text} {ref : Variable} (read : ofSource? text = some ref) :
    text = ref.source := by
  obtain ⟨⟨front, name⟩, cut, tagged⟩ := Option.bind_eq_some_iff.mp read
  obtain ⟨tag, tagged, named⟩ := Option.bind_eq_some_iff.mp tagged
  obtain ⟨rfl, _⟩ := Text.cut_eq_some_iff.mp cut
  obtain rfl := FrameTag.ofName?_eq_some_iff.mp tagged
  split at named
  · cases named
  · cases named
    rfl

theorem isPlain_of_beginsName {c : Char} (begins : beginsName c = true) : IsPlain c := by
  rcases Bool.or_eq_true_iff.mp begins with alpha | special
  · rcases Bool.or_eq_true_iff.mp alpha with upper | lower
    · have range := isUpper_iff.mp upper
      exact isPlain_of_range (by omega)
    · have range := isLower_iff.mp lower
      exact isPlain_of_range (by omega)
  · have marks : IsWord "_-$&%*!?".toList := by decide
    exact marks.plain c (of_decide_eq_true special)

theorem isPlain_of_continuesName {c : Char} (continues : continuesName c = true) :
    IsPlain c := by
  rcases Bool.or_eq_true_iff.mp continues with begins | digit
  · exact isPlain_of_beginsName begins
  · have range := isDigit_iff.mp digit
    exact isPlain_of_range (by omega)

theorem isWord_of_isName {name : Text} (named : isName name = true) : IsWord name := by
  cases name with
  | nil => cases named
  | cons c rest =>
    obtain ⟨begins, continues⟩ := Bool.and_eq_true_iff.mp named
    refine ⟨List.cons_ne_nil c rest, fun d member => ?_⟩
    rcases List.mem_cons.mp member with rfl | member
    · exact isPlain_of_beginsName begins
    · exact isPlain_of_continuesName (List.all_eq_true.mp continues d member)

/-! ## Spellings -/

theorem Source.IsWord.append {front rest : Text} {c : Char} (word : IsWord front)
    (plain : IsPlain c) (others : ∀ d ∈ rest, IsPlain d) : IsWord (front ++ c :: rest) := by
  refine ⟨by simp, fun d member => ?_⟩
  rcases List.mem_append.mp member with inFront | member
  · exact word.plain d inFront
  · rcases List.mem_cons.mp member with rfl | inRest
    · exact plain
    · exact others d inRest

theorem isPlain_of_decode {kind : Kind} (notString : kind ≠ .string) {text : Text}
    {value : Value} (decoded : Literal.decode kind text = .ok (some value)) :
    ∀ c ∈ text, IsPlain c := by
  cases kind with
  | string => exact absurd rfl notString
  | int =>
    obtain ⟨n?, read, given⟩ := Chain.map_eq_ok.mp decoded
    obtain ⟨n, rfl, _⟩ := Option.map_eq_some_iff.mp given
    exact Literal.isPlain_of_parseInt read
  | float =>
    obtain ⟨x?, read, given⟩ := Chain.map_eq_ok.mp decoded
    obtain ⟨x, rfl, _⟩ := Option.map_eq_some_iff.mp given
    exact Literal.isPlain_of_parseFloat read
  | bool =>
    obtain ⟨b, read, _⟩ := Option.map_eq_some_iff.mp (Except.ok.inj decoded)
    have words : IsWord "true".toList ∧ IsWord "false".toList := by decide
    rw [Literal.parseBool] at read
    split at read
    · rename_i same
      rw [same]
      exact words.1.plain
    · split at read
      · rename_i same
        rw [same]
        exact words.2.plain
      · cases read
  | nil =>
    have word : IsWord "nil".toList := by decide
    simp only [Literal.decode, Except.ok.injEq] at decoded
    split at decoded
    · rename_i same
      rw [same]
      exact word.plain
    · cases decoded

/-- The text that follows the type of a writable literal is plain. -/
theorem Operand.Writable.isPlain {kind : Kind} {text : Text}
    (writable : Operand.Writable ⟨.literal kind, text⟩) : ∀ c ∈ text, IsPlain c := by
  by_cases isString : kind = .string
  · subst isString
    exact writable.2
  · have decoded : ∃ value, Literal.decode kind text = .ok (some value) := by
      cases kind with
      | string => exact absurd rfl isString
      | int | bool | float | nil => exact writable
    obtain ⟨value, decoded⟩ := decoded
    exact isPlain_of_decode isString decoded

/-- What a writable operand is written as can stand as a word. -/
theorem Operand.Writable.isWord_source {operand : Operand} (writable : operand.Writable) :
    IsWord operand.source := by
  obtain ⟨operandClass, text⟩ := operand
  cases operandClass with
  | var =>
    obtain ⟨tag, name, rfl, named⟩ := writable
    exact tag.isWord_name.1.append (by decide) (isWord_of_isName named).plain
  | label => exact isWord_of_isName writable
  | type =>
    obtain ⟨kind, rfl⟩ := writable
    exact kind.isWord_name.1
  | literal kind => exact kind.isWord_name.1.append (by decide) writable.isPlain

/-! ## Reading words -/

theorem variableOf?_eq_some_iff {word : Text} {operand : Operand} :
    variableOf? word = some operand ↔ operand = ⟨.var, word⟩ ∧ operand.Writable := by
  constructor
  · intro read
    obtain ⟨⟨front, name⟩, cut, read⟩ := Option.bind_eq_some_iff.mp read
    obtain ⟨tag, tagged, read⟩ := Option.bind_eq_some_iff.mp read
    obtain ⟨rfl, _⟩ := Text.cut_eq_some_iff.mp cut
    obtain rfl := FrameTag.ofName?_eq_some_iff.mp tagged
    simp only [Option.ite_none_right_eq_some] at read
    obtain ⟨named, same⟩ := read
    cases same
    exact ⟨rfl, tag, name, rfl, named⟩
  · rintro ⟨rfl, tag, name, rfl, named⟩
    have cut := Text.cut_append tag.isWord_name.2 name
    simp [variableOf?, cut, FrameTag.ofName?_eq_some_iff.mpr rfl, named]

theorem isConstant_eq_true_iff {kind : Kind} {text : Text} (plain : ∀ c ∈ text, IsPlain c) :
    isConstant kind text = .ok true ↔ Operand.Writable ⟨.literal kind, text⟩ := by
  by_cases isString : kind = .string
  · subst isString
    simp only [isConstant, Except.ok.injEq]
    exact ⟨fun escaped => ⟨escaped, plain⟩, fun writable => writable.1⟩
  · have decodes : isConstant kind text = .ok true ↔
        ∃ value, Literal.decode kind text = .ok (some value) := by
      rw [isConstant_of_ne isString, Chain.map_eq_ok]
      simp only [Option.isSome_iff_exists]
      constructor
      · rintro ⟨_, decoded, value, rfl⟩
        exact ⟨value, decoded⟩
      · rintro ⟨value, decoded⟩
        exact ⟨some value, decoded, value, rfl⟩
    rw [decodes]
    cases kind with
    | string => exact absurd rfl isString
    | int | bool | float | nil => rfl

/-- A constant is the name of a type, an at sign, and a text that fits the type. -/
theorem constantOf?_cons (kind : Kind) (text : Text) :
    constantOf? (kind.name.toList ++ '@' :: text) =
      (isConstant kind text).map fun fits =>
        if fits then some ⟨.literal kind, text⟩ else none := by
  have cut := Text.cut_append kind.isWord_name.2 text
  simp only [constantOf?, cut, Kind.ofName?_eq_some_iff.mpr rfl]

theorem constantOf?_eq (word : Text) :
    constantOf? word = .ok none ∨
      ∃ (kind : Kind) (text : Text), word = kind.name.toList ++ '@' :: text := by
  rw [constantOf?]
  split
  · exact Or.inl rfl
  · rename_i name text cut
    split
    · exact Or.inl rfl
    · rename_i kind named
      obtain ⟨rfl, _⟩ := Text.cut_eq_some_iff.mp cut
      obtain rfl := Kind.ofName?_eq_some_iff.mp named
      exact Or.inr ⟨kind, text, rfl⟩

theorem constantOf?_eq_some_iff {word : Text} {operand : Operand} (isWord : IsWord word) :
    constantOf? word = .ok (some operand) ↔
      operand.operandClass.isLiteral = true ∧ operand.source = word ∧ operand.Writable := by
  constructor
  · intro read
    rcases constantOf?_eq word with none | ⟨kind, text, rfl⟩
    · rw [none] at read
      cases read
    · have plain : ∀ c ∈ text, IsPlain c := fun c inside =>
        isWord.plain c (List.mem_append_right _ (List.mem_cons_of_mem _ inside))
      rw [constantOf?_cons, Chain.map_eq_ok] at read
      obtain ⟨fits, constant, given⟩ := read
      simp only [Option.ite_none_right_eq_some] at given
      obtain ⟨rfl, same⟩ := given
      cases same
      exact ⟨rfl, rfl, (isConstant_eq_true_iff plain).mp constant⟩
  · rintro ⟨isLiteral, rfl, writable⟩
    obtain ⟨operandClass, text⟩ := operand
    cases operandClass with
    | var | label | type => cases isLiteral
    | literal kind =>
      have constant := (isConstant_eq_true_iff writable.isPlain).mpr writable
      change constantOf? (kind.name.toList ++ '@' :: text) = _
      rw [constantOf?_cons, constant]
      rfl

/-- No constant is a variable, since no type has the name of a frame. -/
theorem variableOf?_constant (kind : Kind) (text : Text) :
    variableOf? (kind.name.toList ++ '@' :: text) = none := by
  have cut := Text.cut_append kind.isWord_name.2 text
  have noTag : FrameTag.ofName? kind.name.toList = none := by cases kind <;> rfl
  simp [variableOf?, cut, noTag]

/-- An operand of a class that is not a literal's is its text. -/
theorem Operand.eq_mk_iff (operandClass : OperandClass) (bare : operandClass.isLiteral = false)
    {operand : Operand} {word : Text} :
    operand = ⟨operandClass, word⟩ ↔
      operand.operandClass = operandClass ∧ operand.source = word := by
  obtain ⟨own, text⟩ := operand
  constructor
  · intro same
    cases same
    cases operandClass with
    | var | label | type => exact ⟨rfl, rfl⟩
    | literal kind => cases bare
  · rintro ⟨rfl, spelled⟩
    cases own with
    | var | label | type => exact congrArg (Operand.mk _) spelled
    | literal kind => cases bare

/-- A slot reads a word as an operand exactly when it accepts the operand and the word is
what the operand is written as. -/
theorem operandOf?_eq_some_iff {slot : Slot} {word : Text} {operand : Operand}
    (isWord : IsWord word) :
    operandOf? slot word = .ok (some operand) ↔
      slot.accepts operand.operandClass = true ∧ operand.source = word ∧ operand.Writable := by
  cases slot with
  | var =>
    simp only [operandOf?, Except.ok.injEq, variableOf?_eq_some_iff, Slot.accepts,
      decide_eq_true_eq, Operand.eq_mk_iff .var rfl, and_assoc]
  | label =>
    simp only [operandOf?, Except.ok.injEq, Option.ite_none_right_eq_some, Option.some.injEq,
      Slot.accepts, decide_eq_true_eq]
    constructor
    · rintro ⟨named, rfl⟩
      exact ⟨rfl, rfl, named⟩
    · rintro ⟨isLabel, spelled, writable⟩
      obtain rfl := (Operand.eq_mk_iff .label rfl).mpr ⟨isLabel, spelled⟩
      exact ⟨writable, rfl⟩
  | type =>
    simp only [operandOf?, Except.ok.injEq, Option.map_eq_some_iff, Kind.ofName?_eq_some_iff,
      Slot.accepts, decide_eq_true_eq]
    constructor
    · rintro ⟨kind, rfl, rfl⟩
      exact ⟨rfl, rfl, kind, rfl⟩
    · rintro ⟨isType, spelled, writable⟩
      obtain rfl := (Operand.eq_mk_iff .type rfl).mpr ⟨isType, spelled⟩
      obtain ⟨kind, named⟩ := writable
      exact ⟨kind, named, rfl⟩
  | symbol =>
    simp only [operandOf?, Slot.accepts, OperandClass.isSymbol, Bool.or_eq_true,
      decide_eq_true_eq]
    cases read : variableOf? word with
    | some found =>
      obtain ⟨isVariable, writable⟩ := variableOf?_eq_some_iff.mp read
      simp only [Except.ok.injEq, Option.some.injEq]
      constructor
      · rintro rfl
        obtain ⟨isVar, spelled⟩ := (Operand.eq_mk_iff .var rfl).mp isVariable
        exact ⟨Or.inl isVar, spelled, writable⟩
      · rintro ⟨isVar | isLiteral, spelled, writable'⟩
        · rw [isVariable, (Operand.eq_mk_iff .var rfl).mpr ⟨isVar, spelled⟩]
        · obtain ⟨own, text⟩ := operand
          cases own with
          | var | label | type => cases isLiteral
          | literal kind =>
            rw [← spelled] at read
            cases (variableOf?_constant kind text).symm.trans read
    | none =>
      simp only [constantOf?_eq_some_iff isWord]
      constructor
      · rintro ⟨isLiteral, found⟩
        exact ⟨Or.inr isLiteral, found⟩
      · rintro ⟨isVar | isLiteral, spelled, writable⟩
        · obtain rfl := (Operand.eq_mk_iff .var rfl).mpr ⟨isVar, spelled⟩
          rw [variableOf?_eq_some_iff.mpr ⟨rfl, writable⟩] at read
          cases read
        · exact ⟨isLiteral, spelled, writable⟩

end IPPcode24
