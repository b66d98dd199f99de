import IPPcode24.Proofs.InputLines
import IPPcode24.Proofs.Mnemonics
import IPPcode24.Text.Escape
import Mathlib.Tactic.ByContra

/-!
# Escaped texts

A well escaped text falls into pieces in exactly one way: a piece is a character other than the
backslash, or a backslash with three decimal digits. Decoding gives one character for each
piece, whatever follows, so a well escaped text can be decoded apart from what is behind it.
Every text comes from a well escaped one. The check may as well go over the bytes of the text,
since no byte of another character looks like a backslash or a digit.
-/

namespace IPPcode24

namespace Text

/-- A piece of a well escaped text. -/
inductive Piece where
  | plain (c : Char) (other : c ≠ '\\')
  | escape (hundreds tens ones : Fin 10)

namespace Piece

def text : Piece → Text
  | plain c _ => [c]
  | escape a b c => ['\\', Nat.digitChar a, Nat.digitChar b, Nat.digitChar c]

/-- The character that a piece stands for: itself, or the one whose code the digits spell. -/
def character : Piece → Char
  | plain c _ => c
  | escape a b c => Char.ofNat (100 * a + 10 * b + c)

def written (pieces : List Piece) : Text := pieces.flatMap text

/-- The piece that is written for a character; a backslash is escaped. -/
def ofChar (c : Char) : Piece := if other : c = '\\' then escape 0 9 2 else plain c other

end Piece

/-- The byte of a decimal digit. -/
def isDigitByte (byte : UInt8) : Bool := 48 ≤ byte && byte ≤ 57

/-- Whether three digits follow every backslash among the bytes, from left to right. -/
def wellEscapedBytes : List UInt8 → Bool
  | [] => true
  | 92 :: a :: b :: c :: rest =>
    isDigitByte a && isDigitByte b && isDigitByte c && wellEscapedBytes rest
  | byte :: rest => byte ≠ 92 && wellEscapedBytes rest

/-! ## Pieces -/

section Pieces

variable {text rest : Text} {pieces : List Piece}

theorem Piece.written_cons (piece : Piece) (pieces : List Piece) :
    written (piece :: pieces) = piece.text ++ written pieces := rfl

theorem Piece.toNat_character_escape (a b c : Fin 10) :
    (escape a b c).character.toNat = 100 * a + 10 * b + c := by
  have valid : (100 * a.val + 10 * b.val + c.val).isValidChar := Or.inl (by omega)
  rw [character, Char.ofNat, dif_pos valid]
  rfl

theorem decimalDigit_digitChar : ∀ d : Fin 10, decimalDigit (Nat.digitChar d) = some d.val := by
  decide

theorem decimalDigit_eq_some {c : Char} {value : Nat} (digit : decimalDigit c = some value) :
    ∃ d : Fin 10, c = Nat.digitChar d ∧ value = d.val := by
  rw [decimalDigit, Option.ite_none_right_eq_some] at digit
  obtain ⟨isDigit, same⟩ := digit
  have range := isDigit_iff.mp isDigit
  have zero : '0'.toNat = 48 := rfl
  have code := Option.some.inj same
  have small : value < 10 := by omega
  refine ⟨⟨value, small⟩, ?_, rfl⟩
  rw [← Char.toNat_inj, Nat.toNat_digitChar_of_lt_ten small]
  omega

theorem escaped_digitChar (a b c : Fin 10) :
    escaped (Nat.digitChar a) (Nat.digitChar b) (Nat.digitChar c) =
      some (Piece.escape a b c).character := by
  rw [escaped, decimalDigit_digitChar, decimalDigit_digitChar, decimalDigit_digitChar]
  rfl

/-- Three characters that make up an escape are digits. -/
theorem exists_digits_of_escaped {x y z : Char} (given : (escaped x y z).isSome = true) :
    ∃ a b c : Fin 10, x = Nat.digitChar a ∧ y = Nat.digitChar b ∧ z = Nat.digitChar c := by
  obtain ⟨character, given⟩ := Option.isSome_iff_exists.mp given
  obtain ⟨_, first, given⟩ := Option.bind_eq_some_iff.mp given
  obtain ⟨_, second, given⟩ := Option.bind_eq_some_iff.mp given
  obtain ⟨_, third, _⟩ := Option.bind_eq_some_iff.mp given
  obtain ⟨a, isA, _⟩ := decimalDigit_eq_some first
  obtain ⟨b, isB, _⟩ := decimalDigit_eq_some second
  obtain ⟨c, isC, _⟩ := decimalDigit_eq_some third
  exact ⟨a, b, c, isA, isB, isC⟩

theorem decodeEscapes_piece (piece : Piece) (rest : Text) :
    decodeEscapes (piece.text ++ rest) = piece.character :: decodeEscapes rest := by
  cases piece with
  | plain c other =>
    change decodeEscapes (c :: rest) = c :: decodeEscapes rest
    rw [decodeEscapes.eq_2]
    rintro _ _ _ _ rfl
    exact absurd rfl other
  | escape a b c =>
    change decodeEscapes ('\\' :: _ :: _ :: _ :: rest) = _
    rw [decodeEscapes, escaped_digitChar]

theorem wellEscaped_piece (piece : Piece) (rest : Text) :
    wellEscaped (piece.text ++ rest) = wellEscaped rest := by
  cases piece with
  | plain c other =>
    change wellEscaped (c :: rest) = wellEscaped rest
    rw [wellEscaped.eq_3, decide_eq_true other, Bool.true_and]
    rintro _ _ _ _ rfl
    exact absurd rfl other
  | escape a b c =>
    change wellEscaped ('\\' :: _ :: _ :: _ :: rest) = _
    rw [wellEscaped, escaped_digitChar, Option.isSome_some, Bool.true_and]

theorem decodeEscapes_written (pieces : List Piece) (rest : Text) :
    decodeEscapes (Piece.written pieces ++ rest) =
      pieces.map Piece.character ++ decodeEscapes rest := by
  induction pieces with
  | nil => rfl
  | cons piece pieces ih =>
    rw [Piece.written_cons, List.append_assoc, decodeEscapes_piece, ih]
    rfl

theorem wellEscaped_written (pieces : List Piece) (rest : Text) :
    wellEscaped (Piece.written pieces ++ rest) = wellEscaped rest := by
  induction pieces with
  | nil => rfl
  | cons piece pieces ih => rw [Piece.written_cons, List.append_assoc, wellEscaped_piece, ih]

/-- A well escaped text is written for some pieces. -/
theorem wellEscaped_iff_written :
    wellEscaped text = true ↔ ∃ pieces, text = Piece.written pieces := by
  constructor
  · intro valid
    induction text using wellEscaped.induct with
    | case1 => exact ⟨[], rfl⟩
    | case2 x y z rest ih =>
      obtain ⟨given, later⟩ := Bool.and_eq_true_iff.mp valid
      obtain ⟨a, b, c, rfl, rfl, rfl⟩ := exists_digits_of_escaped given
      obtain ⟨pieces, rfl⟩ := ih later
      exact ⟨.escape a b c :: pieces, rfl⟩
    | case3 c rest short ih =>
      rw [wellEscaped.eq_3 c rest short] at valid
      obtain ⟨other, later⟩ := Bool.and_eq_true_iff.mp valid
      obtain ⟨pieces, rfl⟩ := ih later
      exact ⟨.plain c (of_decide_eq_true other) :: pieces, rfl⟩
  · rintro ⟨pieces, rfl⟩
    have whole := wellEscaped_written pieces []
    rwa [List.append_nil] at whole

theorem digitChar_injective : ∀ a b : Fin 10, Nat.digitChar a = Nat.digitChar b → a = b := by
  decide

theorem Piece.text_append_inj {piece other : Piece} {rest others : Text}
    (same : piece.text ++ rest = other.text ++ others) : piece = other ∧ rest = others := by
  cases piece with
  | plain c notBackslash =>
    cases other with
    | plain d _ =>
      obtain ⟨rfl, rfl⟩ := List.cons.inj same
      exact ⟨rfl, rfl⟩
    | escape a b d => exact absurd (List.cons.inj same).1 notBackslash
  | escape a b c =>
    cases other with
    | plain d notBackslash => exact absurd (List.cons.inj same).1.symm notBackslash
    | escape x y z =>
      simp only [text, List.cons_append, List.nil_append, List.cons.injEq, true_and] at same
      obtain ⟨first, second, third, rest⟩ := same
      rw [digitChar_injective _ _ first, digitChar_injective _ _ second,
        digitChar_injective _ _ third]
      exact ⟨rfl, rest⟩

theorem Piece.text_ne_nil (piece : Piece) : piece.text ≠ [] := by
  cases piece <;> exact List.cons_ne_nil _ _

/-- No two lists of pieces are written alike. -/
theorem Piece.written_injective : Function.Injective written := by
  intro pieces others same
  induction pieces generalizing others with
  | nil =>
    cases others with
    | nil => rfl
    | cons other others => exact absurd (List.append_eq_nil_iff.mp same.symm).1 other.text_ne_nil
  | cons piece pieces ih =>
    cases others with
    | nil => exact absurd (List.append_eq_nil_iff.mp same).1 piece.text_ne_nil
    | cons other others =>
      obtain ⟨rfl, rest⟩ := text_append_inj same
      rw [ih rest]

/-- Characters come back from the pieces that are written for them. -/
theorem Piece.character_ofChar (c : Char) : (ofChar c).character = c := by
  unfold ofChar
  split
  · rename_i backslash
    rw [backslash]
    decide
  · rfl

theorem map_character_ofChar (text : Text) :
    (text.map Piece.ofChar).map Piece.character = text := by
  have same : Piece.character ∘ Piece.ofChar = id := funext Piece.character_ofChar
  rw [List.map_map, same, List.map_id]

end Pieces

/-! ## Bytes -/

section Bytes

variable {text : Text} {byte : UInt8} {bytes : List UInt8}

/-- A byte of the ASCII range at the front is the first character. -/
theorem exists_cons_of_utf8_eq_cons (same : utf8 text = byte :: bytes) (ascii : byte.toNat < 128) :
    ∃ c rest, text = c :: rest ∧ c.toNat = byte.toNat ∧ utf8 rest = bytes := by
  cases text with
  | nil => cases same
  | cons c rest =>
    have encoded : utf8 (c :: rest) = String.utf8EncodeChar c ++ utf8 rest := rfl
    rw [encoded] at same
    obtain ⟨front, split⟩ : ∃ front, String.utf8EncodeChar c = byte :: front := by
      cases code : String.utf8EncodeChar c with
      | nil => exact absurd code String.utf8EncodeChar_ne_nil
      | cons first front =>
        rw [code, List.cons_append] at same
        exact ⟨front, congrArg (· :: front) (List.cons.inj same).1⟩
    have code : c.toNat = byte.toNat :=
      toNat_of_mem_utf8EncodeChar (split ▸ List.mem_cons_self) ascii
    have single : c.utf8Size = 1 := by
      rw [Char.utf8Size_eq_one_iff, UInt32.le_iff_toNat_le]
      change c.toNat ≤ 127
      omega
    have alone : front = [] := by
      have length := String.length_utf8EncodeChar c
      rw [split, single, List.length_cons] at length
      exact List.length_eq_zero_iff.mp (by omega)
    rw [split, alone] at same
    exact ⟨c, rest, rfl, code, (List.cons.inj same).2⟩

theorem isDigitByte_iff : isDigitByte byte = true ↔ 48 ≤ byte.toNat ∧ byte.toNat ≤ 57 := by
  rw [isDigitByte, Bool.and_eq_true, decide_eq_true_eq, decide_eq_true_eq, UInt8.le_iff_toNat_le,
    UInt8.le_iff_toNat_le]
  rfl

/-- A digit at the front of the bytes is one at the front of the text. -/
theorem exists_digit_of_utf8_eq_cons (same : utf8 text = byte :: bytes)
    (digit : isDigitByte byte = true) :
    ∃ (d : Fin 10) (rest : Text), text = Nat.digitChar d :: rest ∧ utf8 rest = bytes := by
  have range := isDigitByte_iff.mp digit
  obtain ⟨c, rest, rfl, code, later⟩ := exists_cons_of_utf8_eq_cons same (by omega)
  have small : byte.toNat - 48 < 10 := by omega
  refine ⟨⟨byte.toNat - 48, small⟩, rest, ?_, later⟩
  rw [List.cons.injEq, ← Char.toNat_inj, Nat.toNat_digitChar_of_lt_ten small]
  exact ⟨by omega, rfl⟩

theorem wellEscapedBytes_cons (other : byte ≠ 92) :
    wellEscapedBytes (byte :: bytes) = wellEscapedBytes bytes := by
  rw [wellEscapedBytes.eq_3, decide_eq_true other, Bool.true_and]
  rintro _ _ _ _ rfl
  exact absurd rfl other

theorem wellEscapedBytes_append {front : List UInt8} (absent : 92 ∉ front) (bytes : List UInt8) :
    wellEscapedBytes (front ++ bytes) = wellEscapedBytes bytes := by
  induction front with
  | nil => rfl
  | cons byte front ih =>
    obtain ⟨other, absent⟩ := not_or.mp (mt List.mem_cons.mpr absent)
    rw [List.cons_append, wellEscapedBytes_cons (Ne.symm other), ih absent]

/-- Behind a backslash the bytes of three digits are asked for, which are three digits of the
text. -/
theorem exists_digits_of_bytes (valid : wellEscapedBytes (92 :: utf8 text) = true) :
    ∃ (a b c : Fin 10) (rest : Text),
      text = Nat.digitChar a :: Nat.digitChar b :: Nat.digitChar c :: rest := by
  obtain ⟨x, y, z, bytes, split⟩ : ∃ x y z bytes, utf8 text = x :: y :: z :: bytes := by
    by_contra short
    rw [wellEscapedBytes.eq_3] at valid
    · cases valid
    · exact fun x y z bytes _ split => short ⟨x, y, z, bytes, split⟩
  rw [split, wellEscapedBytes] at valid
  simp only [Bool.and_eq_true] at valid
  obtain ⟨⟨⟨first, second⟩, third⟩, _⟩ := valid
  obtain ⟨a, afterA, rfl, splitA⟩ := exists_digit_of_utf8_eq_cons split first
  obtain ⟨b, afterB, rfl, splitB⟩ := exists_digit_of_utf8_eq_cons splitA second
  obtain ⟨c, rest, rfl, _⟩ := exists_digit_of_utf8_eq_cons splitB third
  exact ⟨a, b, c, rest, rfl⟩

theorem utf8_escape (a b c : Fin 10) (rest : Text) :
    ∃ x y z, utf8 ('\\' :: Nat.digitChar a :: Nat.digitChar b :: Nat.digitChar c :: rest) =
        92 :: x :: y :: z :: utf8 rest ∧
      isDigitByte x = true ∧ isDigitByte y = true ∧ isDigitByte z = true := by
  have single : ∀ d : Fin 10, ∃ byte, String.utf8EncodeChar (Nat.digitChar d) = [byte] ∧
      isDigitByte byte = true := fun d =>
    ⟨UInt8.ofNat (48 + d), by revert d; decide, by revert d; decide⟩
  obtain ⟨x, isX, digitX⟩ := single a
  obtain ⟨y, isY, digitY⟩ := single b
  obtain ⟨z, isZ, digitZ⟩ := single c
  refine ⟨x, y, z, ?_, digitX, digitY, digitZ⟩
  simp only [utf8, List.flatMap_cons, isX, isY, isZ]
  rfl

/-- The check of the bytes of a text comes to the same as that of its characters. -/
theorem wellEscapedBytes_utf8 (text : Text) : wellEscapedBytes (utf8 text) = wellEscaped text := by
  induction text using wellEscaped.induct with
  | case1 => rfl
  | case2 x y z rest ih =>
    rw [wellEscaped]
    cases given : (escaped x y z).isSome with
    | true =>
      obtain ⟨a, b, c, rfl, rfl, rfl⟩ := exists_digits_of_escaped given
      obtain ⟨_, _, _, bytes, first, second, third⟩ := utf8_escape a b c rest
      rw [bytes, wellEscapedBytes, first, second, third, ih]
      rfl
    | false =>
      refine Bool.eq_false_iff.mpr fun valid => ?_
      obtain ⟨a, b, c, rest, same⟩ :=
        exists_digits_of_bytes (show wellEscapedBytes (92 :: utf8 (x :: y :: z :: rest)) = true
          from valid)
      simp only [List.cons.injEq] at same
      obtain ⟨rfl, rfl, rfl, _⟩ := same
      rw [escaped_digitChar] at given
      cases given
  | case3 c rest short ih =>
    rw [wellEscaped.eq_3 c rest short]
    by_cases backslash : c = '\\'
    · subst backslash
      rw [decide_eq_false (fun other => other rfl), Bool.false_and]
      refine Bool.eq_false_iff.mpr fun valid => ?_
      obtain ⟨a, b, d, others, rfl⟩ :=
        exists_digits_of_bytes (show wellEscapedBytes (92 :: utf8 rest) = true from valid)
      exact short _ _ _ _ rfl rfl
    · have absent : (92 : UInt8) ∉ String.utf8EncodeChar c := fun member =>
        backslash (Char.toNat_inj.mp (toNat_of_mem_utf8EncodeChar member (by decide)))
      have encoded : utf8 (c :: rest) = String.utf8EncodeChar c ++ utf8 rest := rfl
      rw [encoded, wellEscapedBytes_append absent, ih, decide_eq_true backslash, Bool.true_and]

end Bytes

/-- A text is well escaped, which its bytes show as well, exactly if it is written for pieces.
Then the pieces are the only ones, the text is decoded to their characters, the code of an escape
being the number that its digits spell, and both the decoding and the check of a longer text go
on behind it as if they began there. Every text is what some well escaped text is decoded to. -/
theorem escapes_decode_uniquely (text : Text) :
    wellEscapedBytes (utf8 text) = wellEscaped text ∧
      (wellEscaped text = true ↔ ∃ pieces, text = Piece.written pieces) ∧
      (∀ pieces, text = Piece.written pieces →
        (∀ others, text = Piece.written others → others = pieces) ∧
        decodeEscapes text = pieces.map Piece.character ∧
        (∀ a b c, Piece.escape a b c ∈ pieces →
          (Piece.escape a b c).character.toNat = 100 * a + 10 * b + c) ∧
        ∀ back, decodeEscapes (text ++ back) = decodeEscapes text ++ decodeEscapes back ∧
          wellEscaped (text ++ back) = wellEscaped back) ∧
      ∃ source, wellEscaped source = true ∧ decodeEscapes source = text := by
  have decoded (pieces : List Piece) :
      decodeEscapes (Piece.written pieces) = pieces.map Piece.character := by
    have whole := decodeEscapes_written pieces []
    rwa [List.append_nil, decodeEscapes, List.append_nil] at whole
  refine ⟨wellEscapedBytes_utf8 text, wellEscaped_iff_written, ?_, ?_⟩
  · rintro pieces rfl
    refine ⟨fun others same => (Piece.written_injective same).symm, decoded pieces,
      fun a b c _ => Piece.toNat_character_escape a b c, fun back => ⟨?_, ?_⟩⟩
    · rw [decodeEscapes_written, decoded]
    · exact wellEscaped_written pieces back
  · refine ⟨Piece.written (text.map Piece.ofChar), wellEscaped_iff_written.mpr ⟨_, rfl⟩, ?_⟩
    rw [decoded, map_character_ofChar]

/-- A decoded backslash does not begin another escape, and an unfinished escape behind a well
escaped text is kept and makes the check fail. -/
theorem decoded_backslash_is_not_read_again :
    decodeEscapes "a\\092065€".toList = "a\\065€".toList ∧
      decodeEscapes ("a\\092065€".toList ++ "\\12".toList) = "a\\065€\\12".toList ∧
      wellEscaped ("a\\092065€".toList ++ "\\12".toList) = false := by
  let pieces : List Piece := [.plain 'a' (by decide), .escape 0 9 2, .plain '0' (by decide),
    .plain '6' (by decide), .plain '5' (by decide), .plain '€' (by decide)]
  have written : "a\\092065€".toList = Piece.written pieces := by decide +kernel
  obtain ⟨_, decoded, _, onward⟩ :=
    (escapes_decode_uniquely "a\\092065€".toList).2.2.1 pieces written
  obtain ⟨decodedFurther, checkedFurther⟩ := onward "\\12".toList
  refine ⟨decoded.trans (by decide +kernel), ?_, checkedFurther.trans (by decide +kernel)⟩
  rw [decodedFurther, decoded]
  decide +kernel

end Text

end IPPcode24
