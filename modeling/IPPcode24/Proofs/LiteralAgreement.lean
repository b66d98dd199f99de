import IPPcode24.Proofs.InputLines
import IPPcode24.Proofs.RoundTrip

/-!
# Numbers in sources, in operands and in the input

A number is met in three places: as a constant of a source text, as the text of an operand,
and on a line of the input. All three hand the same text to the same reader, so they accept
it, refuse it or crash on it together, and what they accept is one value.
-/

namespace IPPcode24

open Source

/-- A source text of a single WRITE of a word. -/
def writingOf (word : Text) : Text := ".IPPcode24\nWRITE ".toList ++ word ++ ['\n']

/-- What the three places make of a text as a number of a type: the word with the text is read
as an operand, a source text that writes the word is assembled, an operand with the text is
looked up, and a value is read from the input. -/
inductive ReadAlike (kind : Kind) (text : Text) :
    Except Crash (Option Operand) → Assembled (List Instruction) → Attempt Value →
      Except Crash (Option Value) → Prop where
  | accepted {value : Value} (typed : value.kind = kind) :
      ReadAlike kind text (.ok (some ⟨.literal kind, text⟩))
        (.ok [⟨1, "WRITE".toList, [⟨.literal kind, text⟩]⟩]) (.ok value) (.ok (some value))
  | refused :
      ReadAlike kind text (.ok none)
        (failAt 2 (.invalidOperand .symbol (Operand.source ⟨.literal kind, text⟩)))
        (fail (.operandValue (.notLiteral kind text))) (.ok none)
  | crashed (divided : Literal.Divided text) :
      ReadAlike kind text (.error .dividedCharacter) (.error (.crash .dividedCharacter))
        (.error (.crash .dividedCharacter)) (.error .dividedCharacter)

section Readers

variable {kind : Kind} {text : Text}

theorem Literal.IsNumeric.ne_nil (numeric : IsNumeric kind) : kind ≠ .nil := by
  rcases numeric with rfl | rfl <;> exact nofun

theorem Literal.IsNumeric.ne_string (numeric : IsNumeric kind) : kind ≠ .string := by
  rcases numeric with rfl | rfl <;> exact nofun

theorem operandOf?_literal (other : kind ≠ .string) :
    operandOf? .symbol (Operand.source ⟨.literal kind, text⟩) =
      (Literal.decode kind text).map fun value? =>
        if value?.isSome then some ⟨.literal kind, text⟩ else none := by
  change operandOf? .symbol (kind.name.toList ++ '@' :: text) = _
  simp only [operandOf?, variableOf?_constant]
  rw [constantOf?_cons, isConstant_of_ne other]
  cases Literal.decode kind text <;> rfl

theorem isWord_literal (plain : ∀ c ∈ text, IsPlain c) :
    IsWord (Operand.source ⟨.literal kind, text⟩) :=
  kind.isWord_name.1.append (by decide) plain

theorem wordedLines_writingOf {word : Text} (isWord : IsWord word) :
    wordedLines (writingOf word) =
      [(1, [".IPPcode24".toList]), (2, ["WRITE".toList, word])] := by
  have writes : ∀ other ∈ ["WRITE".toList, word], IsWord other := by
    intro other member
    rcases List.mem_cons.mp member with rfl | member
    · decide
    · rw [List.mem_singleton.mp member]
      exact isWord
  have split : writingOf word =
      ".IPPcode24\n".toList ++ (joined ["WRITE".toList, word] ++ '\n' :: []) := by
    rw [joined, List.flatMap_cons, List.flatMap_nil, List.append_nil]
    rfl
  rw [split, wordedLines_header, lines_append (newline_not_mem_joined writes),
    numbered_joined (List.cons_ne_nil _ _) writes]
  rfl

theorem assemble_writingOf {word : Text} (isWord : IsWord word) (noHeader : isHeader word = false) :
    assemble (writingOf word) =
      match operandOf? .symbol word with
      | .ok (some operand) => .ok [⟨1, "WRITE".toList, [operand]⟩]
      | .ok none => failAt 2 (.invalidOperand .symbol word)
      | .error crash => .error (.crash crash) := by
  have headed : isHeader ".IPPcode24".toList = true := rfl
  have noHeaders : ["WRITE".toList, word].any isHeader = false := by
    rw [List.any_cons, List.any_cons, noHeader]
    rfl
  have known : Opcode.ofMnemonic? "WRITE".toList = some .write := rfl
  have line : instruction 2 1 ["WRITE".toList, word] =
      (operands 2 [.symbol] [word]).map fun operands => ⟨1, "WRITE".toList, operands⟩ := by
    rw [instruction, noHeaders, if_neg Bool.false_ne_true]
    simp only [known]
    rfl
  rw [assemble, wordedLines_writingOf isWord]
  simp only [headed, if_true, instructions, line, operands]
  cases operandOf? .symbol word with
  | error crash => rfl
  | ok operand? => cases operand? <;> rfl

/-- The reader of a number gets what stands between the blanks of a line. -/
theorem read_of_begins {line : Text} {input rest : Input} (numeric : Literal.IsNumeric kind)
    (single : '\n' ∉ line) (begins : Input.Begins line input rest) :
    input.read kind = (Literal.decode kind (Text.trim line), rest) := by
  have reads {whole : Text} (given : input.nextLine = (some whole, rest)) :
      input.read kind = (Literal.decode kind (Text.trim whole), rest) := by
    rw [Input.read_of_nextLine numeric.ne_nil given]
    rcases numeric with rfl | rfl <;> rfl
  cases begins with
  | terminated rest =>
    rw [reads (Input.nextLine_of_terminated single rest), Input.trim_dropLineEnd]
  | last =>
    have given := Input.nextLine_of_unterminated single
    split at given
    · rename_i empty
      subst empty
      rcases numeric with rfl | rfl <;> rfl
    · exact reads given

end Readers

/-- A text without blanks and number signs is a number of a type in all three places or in
none, with one value for all of them. On the line it may stand between any blanks but a line
feed, and the line may be the last one of the input. -/
theorem numbers_are_read_alike {kind : Kind} {front text back : Text} {input rest : Input}
    (numeric : Literal.IsNumeric kind) (plain : ∀ c ∈ text, IsPlain c)
    (blank : ∀ c ∈ front ++ back, Text.isBlank c = true ∧ c ≠ '\n')
    (begins : Input.Begins (front ++ text ++ back) input rest) :
    ReadAlike kind text (operandOf? .symbol (Operand.source ⟨.literal kind, text⟩))
        (assemble (writingOf (Operand.source ⟨.literal kind, text⟩)))
        (Operand.literal ⟨.literal kind, text⟩) (input.read kind).1 ∧
      (input.read kind).2 = rest := by
  have single : '\n' ∉ front ++ text ++ back := by
    intro member
    rcases List.mem_append.mp member with member | inBack
    · rcases List.mem_append.mp member with inFront | inText
      · exact (blank _ (List.mem_append_left _ inFront)).2 rfl
      · exact absurd (plain _ inText).1 (by decide)
    · exact (blank _ (List.mem_append_right _ inBack)).2 rfl
  have trimmed : Text.trim (front ++ text ++ back) = text :=
    Text.trim_of_blanks (fun c member => (blank c (List.mem_append_left _ member)).1)
      (fun c member => (blank c (List.mem_append_right _ member)).1)
      fun c member => (plain c member).1
  have noHeader : isHeader (Operand.source ⟨.literal kind, text⟩) = false := by
    refine isHeader_append kind.isWord_name.1.occupied ?_
    cases kind <;> decide
  rw [read_of_begins numeric single begins, trimmed,
    assemble_writingOf (isWord_literal plain) noHeader, operandOf?_literal numeric.ne_string]
  refine ⟨?_, rfl⟩
  cases decoded : Literal.decode kind text with
  | error crash =>
    obtain ⟨rfl, _, divided⟩ := Literal.decode_eq_error.mp decoded
    simp only [Operand.literal, decoded]
    exact .crashed divided
  | ok value? =>
    cases value? with
    | none =>
      simp only [Operand.literal, decoded]
      exact .refused
    | some value =>
      simp only [Operand.literal, decoded]
      exact .accepted (decode_eq_some decoded).1

/-- An integer on a line with other blanks is accepted in all three places, and so is a float
on a last line; a number that goes on with a wide character makes all of them crash. -/
theorem three_texts_are_read_alike :
    (ReadAlike .int "-0x1F".toList (operandOf? .symbol "int@-0x1F".toList)
        (assemble (writingOf "int@-0x1F".toList)) (Operand.literal ⟨.literal .int, "-0x1F".toList⟩)
        (Input.read .int ⟨Text.utf8 "\t-0x1F\u3000\r".toList ++ [10, 98]⟩).1 ∧
      Operand.literal ⟨.literal .int, "-0x1F".toList⟩ = .ok (.int (-31))) ∧
    (ReadAlike .float "1.5".toList (operandOf? .symbol "float@1.5".toList)
        (assemble (writingOf "float@1.5".toList)) (Operand.literal ⟨.literal .float, "1.5".toList⟩)
        (Input.read .float ⟨Text.utf8 "1.5".toList⟩).1 ∧
      Operand.literal ⟨.literal .float, "1.5".toList⟩ = .ok (.float (.ofBits 0x3FF8000000000000))) ∧
    ReadAlike .int "+1€".toList (operandOf? .symbol "int@+1€".toList)
        (assemble (writingOf "int@+1€".toList)) (Operand.literal ⟨.literal .int, "+1€".toList⟩)
        (Input.read .int ⟨Text.utf8 " +1€".toList ++ [10]⟩).1 ∧
      Operand.literal ⟨.literal .int, "+1€".toList⟩ = .error (.crash .dividedCharacter) := by
  have plain : IsWord "-0x1F".toList ∧ IsWord "1.5".toList ∧ IsWord "+1€".toList := by
    decide +kernel
  have blanks : ∀ c ∈ ['\t', '\u3000', '\r'], Text.isBlank c = true ∧ c ≠ '\n' := by
    rw [List.forall_mem_cons, List.forall_mem_cons, List.forall_mem_cons]
    exact ⟨by decide, by decide, by decide, nofun⟩
  have space : ∀ c ∈ [' '], Text.isBlank c = true ∧ c ≠ '\n' := by
    rw [List.forall_mem_cons]
    exact ⟨by decide, nofun⟩
  have integer := @numbers_are_read_alike .int ['\t'] "-0x1F".toList ['\u3000', '\r'] _ _
    (Or.inl rfl) plain.1.plain blanks (.terminated [98])
  have float := @numbers_are_read_alike .float [] "1.5".toList [] _ _ (Or.inr rfl)
    plain.2.1.plain nofun .last
  have wide := @numbers_are_read_alike .int [' '] "+1€".toList [] _ _ (Or.inl rfl)
    plain.2.2.plain space (.terminated [])
  exact ⟨⟨integer.1, by decide +kernel⟩, ⟨float.1, by decide +kernel⟩, wide.1, by decide +kernel⟩

end IPPcode24
