import IPPcode24.Literal.Integer
import IPPcode24.Proofs.NumeralPieces

/-!
# Integers as decimal texts

The text of an integer holds no sign but a minus, no marker of a base and no leading zero,
so it is read as a decimal number. Every 64-bit integer, the least one included, is read
back from its text.
-/

namespace IPPcode24

/-! ## Digits -/

namespace Text

theorem isDigit_of_mem_ofNat {n : Nat} {c : Char} (member : c ∈ ofNat n) : c.isDigit = true :=
  Nat.isDigit_of_mem_toDigits (by decide) (by decide) member

theorem ofNat_ne_nil (n : Nat) : ofNat n ≠ [] := Nat.toDigits_ne_nil

/-- Only zero begins with a zero. -/
theorem head?_ofNat_ne_zero {n : Nat} (positive : 0 < n) : (ofNat n).head? ≠ some '0' := by
  induction n using Nat.base_induction 10 (by decide) with
  | single n small =>
    rw [ofNat, Nat.toDigits_of_lt_base small]
    intro same
    have code := congrArg Char.toNat (Option.some.inj same)
    rw [Nat.toNat_digitChar_of_lt_ten small] at code
    change 48 + n = 48 at code
    omega
  | digit front last small frontPositive ih =>
    rw [ofNat, ← Nat.toDigits_append_toDigits (by decide) frontPositive small, List.head?_append]
    intro same
    rcases Option.or_eq_some_iff.mp same with first | ⟨nothing, _⟩
    · exact ih frontPositive first
    · exact ofNat_ne_nil front (List.head?_eq_none_iff.mp nothing)

/-- A text that begins with a zero is the text of zero alone. -/
theorem eq_nil_of_ofNat_eq_cons {n : Nat} {rest : Text} (same : ofNat n = '0' :: rest) :
    rest = [] := by
  rcases Nat.eq_zero_or_pos n with rfl | positive
  · exact (List.cons.inj same).2.symm
  · exact absurd (congrArg List.head? same) (head?_ofNat_ne_zero positive)

end Text

namespace Literal

section Digits

variable {text : Text}

theorem digitValue_of_isDigit {c : Char} (digit : c.isDigit = true) :
    digitValue 10 c = some (c.toNat - '0'.toNat) := by
  have range := isDigit_iff.mp digit
  have zero : '0'.toNat = 48 := rfl
  rw [digitValue_eq_some_iff, digitOf_iff, zero]
  omega

theorem digitValues_of_isDigit (digits : ∀ c ∈ text, c.isDigit = true) :
    digitValues 10 text = some (text.map fun c => c.toNat - '0'.toNat) := by
  induction text with
  | nil => rfl
  | cons c rest ih =>
    have later := ih fun d member => digits d (List.mem_cons_of_mem c member)
    rw [digitValues, digitValue_of_isDigit (digits c List.mem_cons_self), later]
    rfl

/-- The values of the digits of a number make up the number. -/
theorem ofDigits_ofNat (n : Nat) :
    ofDigits 10 ((Text.ofNat n).map fun c => c.toNat - '0'.toNat) = n := by
  have folded : ofDigits 10 ((Text.ofNat n).map fun c => c.toNat - '0'.toNat) =
      Nat.ofDigitChars 10 (Text.ofNat n) 0 := by
    rw [ofDigits, List.foldl_map, Nat.ofDigitChars_eq_foldl]
    simp only [Nat.mul_comm]
  rw [folded]
  exact Nat.ofDigitChars_ten_toDigits

/-- Digits are single bytes, and so no character is divided after two of them. -/
theorem dividesCharacter_of_isDigit (digits : ∀ c ∈ text, c.isDigit = true) :
    dividesCharacter text = false :=
  dividesCharacter_of_ascii fun c member => by
    have range := isDigit_iff.mp (digits c member)
    omega

theorem takeMarker_of_isDigit {letter : Char} (digits : ∀ c ∈ text, c.isDigit = true)
    (noLeading : ∀ rest, text = '0' :: rest → rest = []) :
    takeMarker letter text = .ok none :=
  takeMarker_eq_none (dividesCharacter_of_isDigit digits) fun _ _ same => by
    cases noLeading _ same

theorem baseAndDigits_of_isDigit (digits : ∀ c ∈ text, c.isDigit = true)
    (noLeading : ∀ rest, text = '0' :: rest → rest = []) :
    baseAndDigits text = .ok (10, text) := by
  have noMarker (letter : Char) : takeMarker letter text = .ok none :=
    takeMarker_of_isDigit digits noLeading
  unfold baseAndDigits
  rw [noMarker, noMarker]
  dsimp only [bind, Except.bind]
  split
  · cases noLeading _ rfl
  · rfl

theorem hasDoubleUnderscore_of_not_mem (absent : '_' ∉ text) :
    hasDoubleUnderscore text = false := by
  induction text with
  | nil => rfl
  | cons c rest ih =>
    have other : c ≠ '_' := fun same => absent (same ▸ List.mem_cons_self)
    unfold hasDoubleUnderscore
    split
    · rename_i same
      exact absurd (List.cons.inj same).1 other
    · rename_i same
      rw [← (List.cons.inj same).2]
      exact ih fun member => absent (List.mem_cons_of_mem c member)
    · rfl

theorem wellSeparated_of_isDigit (digits : ∀ c ∈ text, c.isDigit = true) (occupied : text ≠ []) :
    wellSeparated text = true := by
  have absent : '_' ∉ text := fun member => absurd (digits '_' member) (by decide)
  have noFirst : text.head? ≠ some '_' := fun first => absent (List.mem_of_mem_head? first)
  have noLast : text.getLast? ≠ some '_' := fun last => absent (List.mem_of_mem_getLast? last)
  simp [wellSeparated, occupied, noFirst, noLast, hasDoubleUnderscore_of_not_mem absent]

end Digits

/-! ## Integers -/

theorem takeSign_ofInt (n : Int) :
    takeSign (Text.ofInt n) = (decide (n < 0), Text.ofNat n.natAbs) := by
  rw [Text.ofInt]
  split
  · rename_i negative
    rw [takeSign, decide_eq_true negative]
  · rename_i notNegative
    rw [decide_eq_false notNegative]
    cases shape : Text.ofNat n.natAbs with
    | nil => exact absurd shape (Text.ofNat_ne_nil _)
    | cons c rest =>
      have digit : c.isDigit = true := Text.isDigit_of_mem_ofNat (shape ▸ List.mem_cons_self)
      refine takeSign_of_head_ne ?_ ?_
      · rintro rfl
        exact absurd digit (by decide)
      · rintro rfl
        exact absurd digit (by decide)

/-- The sign and the magnitude of a 64-bit integer give the integer; the magnitude of the
least one is past the range of the positive ones. -/
theorem signedInteger_toInt (n : Int64) :
    signedInteger (decide (n.toInt < 0)) n.toInt.natAbs = some n := by
  have least := n.le_toInt
  have greatest := n.toInt_lt
  by_cases negative : n.toInt < 0
  · have fits : n.toInt.natAbs ≤ 0x8000000000000000 := by omega
    have same : -(n.toInt.natAbs : Int) = n.toInt := by omega
    simp only [signedInteger, negative, decide_true, if_true, if_pos fits, same, Int64.ofInt_toInt]
  · have fits : n.toInt.natAbs < 0x8000000000000000 := by omega
    have same : (n.toInt.natAbs : Int) = n.toInt := by omega
    simp only [signedInteger, negative, decide_false, Bool.false_eq_true, if_false, if_pos fits,
      same, Int64.ofInt_toInt]

/-- What follows the sign of an integer is taken as decimal digits, as a whole. -/
theorem baseAndDigits_ofNat (n : Nat) : baseAndDigits (Text.ofNat n) = .ok (10, Text.ofNat n) :=
  baseAndDigits_of_isDigit (fun _ => Text.isDigit_of_mem_ofNat)
    fun _ => Text.eq_nil_of_ofNat_eq_cons

/-- Every integer is read back from its text. -/
theorem parseInt_ofInt (n : Int64) : parseInt (Text.ofInt n.toInt) = .ok (some n) := by
  have digits : ∀ c ∈ Text.ofNat n.toInt.natAbs, c.isDigit = true :=
    fun _ => Text.isDigit_of_mem_ofNat
  have kept : (Text.ofNat n.toInt.natAbs).filter (· ≠ '_') = Text.ofNat n.toInt.natAbs := by
    refine List.filter_eq_self.mpr fun c member => ?_
    rw [decide_eq_true_eq]
    rintro rfl
    exact absurd (digits '_' member) (by decide)
  have separated := wellSeparated_of_isDigit digits (Text.ofNat_ne_nil _)
  simp only [parseInt, takeSign_ofInt, baseAndDigits_ofNat]
  change (if wellSeparated (Text.ofNat n.toInt.natAbs) then _ else _) = _
  rw [if_pos separated, kept, digitValues_of_isDigit digits]
  change Except.ok (signedInteger _ (ofDigits 10 _)) = _
  rw [ofDigits_ofNat, signedInteger_toInt]

end Literal

end IPPcode24
