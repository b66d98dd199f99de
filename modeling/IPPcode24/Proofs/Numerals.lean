import IPPcode24.Literal.Decode
import IPPcode24.Proofs.Attempt
import IPPcode24.Proofs.Mnemonics
import IPPcode24.Proofs.Words

/-!
# Characters of numbers

A text that is read as a number holds signs, digits, the letters of its markers and of
its exponent, a point and underscores, and so nothing that would end a word or begin a
comment.
-/

namespace IPPcode24

open Source (IsPlain)

/-- The printable ASCII characters after the number sign are plain. -/
theorem isPlain_of_range {c : Char} (range : 36 ≤ c.toNat ∧ c.toNat ≤ 126) : IsPlain c := by
  constructor
  · simp only [Text.isBlank, Bool.or_eq_false_iff, Bool.and_eq_false_iff,
      decide_eq_false_iff_not, beq_eq_false_iff_ne]
    omega
  · rintro rfl
    exact absurd range.1 (by decide)

namespace Literal

theorem isPlain_of_digitValue {base value : Nat} {c : Char}
    (digit : digitValue base c = some value) : IsPlain c := by
  obtain ⟨given, _⟩ := Option.filter_eq_some_iff.mp digit
  simp only [Bool.and_eq_true, decide_eq_true_eq, Char.le_def, UInt32.le_iff_toNat_le] at given
  split at given
  · rename_i range
    change 48 ≤ c.toNat ∧ c.toNat ≤ 57 at range
    exact isPlain_of_range (by omega)
  · split at given
    · rename_i range
      change 97 ≤ c.toNat ∧ c.toNat ≤ 102 at range
      exact isPlain_of_range (by omega)
    · split at given
      · rename_i range
        change 65 ≤ c.toNat ∧ c.toNat ≤ 70 at range
        exact isPlain_of_range (by omega)
      · cases given

theorem isPlain_of_digitValues {base : Nat} {text : Text} {values : List Nat}
    (digits : digitValues base text = some values) : ∀ c ∈ text, IsPlain c := by
  induction text generalizing values with
  | nil => simp
  | cons c rest ih =>
    obtain ⟨value, first, digits⟩ := Option.bind_eq_some_iff.mp digits
    obtain ⟨others, later, _⟩ := Option.bind_eq_some_iff.mp digits
    intro d member
    rcases List.mem_cons.mp member with rfl | member
    · exact isPlain_of_digitValue first
    · exact ih later d member

theorem mem_takeSign {text : Text} {c : Char} (member : c ∈ text) :
    IsPlain c ∨ c ∈ (takeSign text).2 := by
  unfold takeSign
  split
  · rcases List.mem_cons.mp member with rfl | member
    · exact Or.inl (by decide)
    · exact Or.inr member
  · rcases List.mem_cons.mp member with rfl | member
    · exact Or.inl (by decide)
    · exact Or.inr member
  · exact Or.inr member

/-! ## Integers -/

theorem mem_takeMarker {letter : Char} {body digits : Text}
    (plain : ∀ c : Char, c.toLower = letter → IsPlain c)
    (taken : takeMarker letter body = .ok (some digits)) {c : Char} (member : c ∈ body) :
    IsPlain c ∨ c ∈ digits := by
  unfold takeMarker at taken
  split at taken
  · cases taken
  · split at taken
    · rename_i d rest
      simp only [Except.ok.injEq] at taken
      split at taken
      · rename_i isLetter
        cases taken
        rcases List.mem_cons.mp member with rfl | member
        · exact Or.inl (by decide)
        · rcases List.mem_cons.mp member with rfl | member
          · exact Or.inl (plain _ isLetter)
          · exact Or.inr member
      · cases taken
    · cases taken

theorem isPlain_of_toLower_eq {c letter : Char} (same : c.toLower = letter)
    (range : 97 ≤ letter.toNat ∧ letter.toNat ≤ 122) : IsPlain c := by
  have code := congrArg Char.toNat same
  rw [toNat_toLower] at code
  refine isPlain_of_range ?_
  split at code <;> omega

theorem mem_baseAndDigits {body digits : Text} {base : Nat}
    (taken : baseAndDigits body = .ok (base, digits)) {c : Char} (member : c ∈ body) :
    IsPlain c ∨ c ∈ digits := by
  obtain ⟨marked?, first, taken⟩ := Chain.bind_eq_ok.mp taken
  cases marked? with
  | some marked =>
    cases taken
    exact mem_takeMarker (fun d same => isPlain_of_toLower_eq same (by decide)) first member
  | none =>
    obtain ⟨marked?, second, taken⟩ := Chain.bind_eq_ok.mp taken
    cases marked? with
    | some marked =>
      cases taken
      exact mem_takeMarker (fun d same => isPlain_of_toLower_eq same (by decide)) second member
    | none =>
      simp only at taken
      split at taken
      · cases taken
        rcases List.mem_cons.mp member with rfl | member
        · exact Or.inl (by decide)
        · exact Or.inr member
      · cases taken
        exact Or.inr member

theorem isPlain_of_parseInt {text : Text} {n : Int64} (read : parseInt text = .ok (some n)) :
    ∀ c ∈ text, IsPlain c := by
  intro c member
  rcases mem_takeSign member with plain | member
  · exact plain
  obtain ⟨⟨base, digits⟩, taken, read⟩ := Chain.bind_eq_ok.mp read
  rcases mem_baseAndDigits taken member with plain | member
  · exact plain
  simp only at read
  split at read
  · obtain ⟨values, valued, _⟩ := Option.bind_eq_some_iff.mp (Except.ok.inj read)
    by_cases underscore : c = '_'
    · rw [underscore]
      decide
    · exact isPlain_of_digitValues valued c
        (List.mem_filter.mpr ⟨member, decide_eq_true underscore⟩)
  · cases read

/-! ## Floats -/

theorem isPlain_of_signedDecimal {text : Text} {n : Int} (read : signedDecimal text = some n) :
    ∀ c ∈ text, IsPlain c := by
  intro c member
  rcases mem_takeSign member with plain | member
  · exact plain
  obtain ⟨values, valued, _⟩ := Option.bind_eq_some_iff.mp read
  exact isPlain_of_digitValues valued c member

theorem mem_cutExponent (isLetter : Char → Bool) {text : Text} {c : Char} (member : c ∈ text) :
    c ∈ (cutExponent isLetter text).1 ∨ isLetter c = true ∨
      ∃ exponent, (cutExponent isLetter text).2 = some exponent ∧ c ∈ exponent := by
  induction text with
  | nil => cases member
  | cons d rest ih =>
    rw [cutExponent]
    split
    · rename_i letter
      rcases List.mem_cons.mp member with rfl | member
      · exact Or.inr (Or.inl letter)
      · exact Or.inr (Or.inr ⟨rest, rfl, member⟩)
    · rcases List.mem_cons.mp member with rfl | member
      · exact Or.inl List.mem_cons_self
      · rcases ih member with before | later
        · exact Or.inl (List.mem_cons_of_mem d before)
        · exact Or.inr later

theorem mem_splitPoint {mantissa : Text} {c : Char} (member : c ∈ mantissa) :
    c = '.' ∨ c ∈ (splitPoint mantissa).1 ∨ c ∈ (splitPoint mantissa).2 := by
  rw [splitPoint]
  cases split : Text.cut '.' mantissa with
  | none => exact Or.inr (Or.inl member)
  | some parts =>
    obtain ⟨rfl, _⟩ := Text.cut_eq_some_iff.mp split
    rcases List.mem_append.mp member with whole | member
    · exact Or.inr (Or.inl whole)
    · rcases List.mem_cons.mp member with point | fraction
      · exact Or.inl point
      · exact Or.inr (Or.inr fraction)

/-- The parts of a number around its exponent letter hold plain characters, and so does
the letter. -/
theorem isPlain_of_cutExponent (isLetter : Char → Bool) {body : Text}
    (letters : ∀ c, isLetter c = true → IsPlain c)
    (mantissa : ∀ c ∈ (cutExponent isLetter body).1, IsPlain c)
    (exponent : ∀ text, (cutExponent isLetter body).2 = some text →
      ∃ n, signedDecimal text = some n) : ∀ c ∈ body, IsPlain c := by
  intro c member
  rcases mem_cutExponent isLetter member with
    inMantissa | letter | ⟨text, cut, inExponent⟩
  · exact mantissa c inMantissa
  · exact letters c letter
  · obtain ⟨n, read⟩ := exponent text cut
    exact isPlain_of_signedDecimal read c inExponent

/-- An exponent is zero when it is not written. -/
theorem exists_exponent {α : Type} {exponent? : Option Text} {next : Int → Option α} {a : α}
    (read : (match exponent? with
      | some text => signedDecimal text >>= next
      | none => some 0 >>= next) = some a) :
    ∃ n, next n = some a ∧ ∀ text, exponent? = some text → ∃ n, signedDecimal text = some n := by
  cases exponent? with
  | none => exact ⟨0, read, nofun⟩
  | some text =>
    obtain ⟨n, exponent, read⟩ := Option.bind_eq_some_iff.mp read
    refine ⟨n, read, fun other same => ⟨n, ?_⟩⟩
    rw [← Option.some.inj same]
    exact exponent

theorem isPlain_of_parseDecimal {body : Text} {x : Binary64}
    (read : parseDecimal body = some x) : ∀ c ∈ body, IsPlain c := by
  obtain ⟨values, valued, read⟩ := Option.bind_eq_some_iff.mp read
  obtain ⟨_, _, exponent⟩ := exists_exponent read
  refine isPlain_of_cutExponent (fun c => c = 'e' || c = 'E') ?_ ?_ exponent
  · intro c letter
    simp only [Bool.or_eq_true, decide_eq_true_eq] at letter
    rcases letter with rfl | rfl <;> decide
  · intro c member
    rcases mem_splitPoint member with rfl | inWhole | inFraction
    · decide
    · exact isPlain_of_digitValues valued c (List.mem_append_left _ inWhole)
    · exact isPlain_of_digitValues valued c (List.mem_append_right _ inFraction)

theorem isPlain_of_parseHexadecimal {body : Text} {x : Binary64}
    (read : parseHexadecimal body = some x) : ∀ c ∈ body, IsPlain c := by
  obtain ⟨n, read, exponent⟩ := exists_exponent read
  simp only [Option.ite_none_left_eq_some] at read
  obtain ⟨_, _, read⟩ := read
  obtain ⟨whole, wholeValued, read⟩ := Option.bind_eq_some_iff.mp read
  obtain ⟨fraction, fractionValued, _⟩ := Option.bind_eq_some_iff.mp read
  refine isPlain_of_cutExponent (fun c => c = 'p' || c = 'P') ?_ ?_ exponent
  · intro c letter
    simp only [Bool.or_eq_true, decide_eq_true_eq] at letter
    rcases letter with rfl | rfl <;> decide
  · intro c member
    rcases mem_splitPoint member with rfl | inWhole | inFraction
    · decide
    · exact isPlain_of_digitValues wholeValued c inWhole
    · exact isPlain_of_digitValues fractionValued c inFraction

theorem isPlain_of_parseFloat {text : Text} {x : Binary64}
    (read : parseFloat text = .ok (some x)) : ∀ c ∈ text, IsPlain c := by
  intro c member
  rcases mem_takeSign member with plain | member
  · exact plain
  obtain ⟨digits?, taken, read⟩ := Chain.bind_eq_ok.mp read
  obtain ⟨magnitude, read, _⟩ := Option.map_eq_some_iff.mp (Except.ok.inj read)
  cases digits? with
  | none => exact isPlain_of_parseDecimal read c member
  | some digits =>
    have letter (d : Char) (same : d.toLower = 'x') := isPlain_of_toLower_eq same (by decide)
    rcases mem_takeMarker letter taken member with plain | member
    · exact plain
    · exact isPlain_of_parseHexadecimal read c member

end Literal

end IPPcode24
