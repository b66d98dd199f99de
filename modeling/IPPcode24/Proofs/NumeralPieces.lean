import IPPcode24.Literal.Marker
import IPPcode24.Proofs.Mnemonics
import Mathlib.Data.List.Forall2
import Mathlib.Data.List.Induction
import Mathlib.Data.Nat.Digits.Defs

/-!
# The pieces of numerals

The pieces of a numeral are described without reference to how they are read: one sign or
none, a zero and a letter in either case as the marker of the base, and digits, whose values
are their places in the row of digits. The readers of the pieces give exactly what these
descriptions say, and digits are summed up to the number that has them in the base.
-/

namespace IPPcode24.Literal

/-- The value of a digit is its place in the row of digits; a letter may be a capital. -/
def DigitOf (base : Nat) (c : Char) (value : Nat) : Prop :=
  value < base ∧ "0123456789abcdef".toList[value]? = some c.toLower

instance (base : Nat) (c : Char) (value : Nat) : Decidable (DigitOf base c value) :=
  inferInstanceAs (Decidable (_ ∧ _))

def DigitsOf (base : Nat) : Text → List Nat → Prop := List.Forall₂ (DigitOf base)

/-- The number with these digits, most significant first. -/
def numberOf (base : Nat) (values : List Nat) : Nat := Nat.ofDigits base values.reverse

/-- The text is the body behind one sign or none, and whether the sign is a minus. -/
inductive Signed (body : Text) : Bool → Text → Prop where
  | bare : Signed body false body
  | plus : Signed body false ('+' :: body)
  | minus : Signed body true ('-' :: body)

/-- The number with a magnitude and a sign. -/
def withSign (negative : Bool) (magnitude : Nat) : Int :=
  if negative then -(magnitude : Int) else magnitude

/-! ## Digits -/

section Digits

variable {base value : Nat} {c : Char} {text : Text} {values : List Nat}

theorem digitRow_eq_some_iff {d : Char} :
    "0123456789abcdef".toList[value]? = some d ↔
      value < 16 ∧ d.toNat = if value < 10 then 48 + value else 87 + value := by
  have codes : ∀ place < 16, "0123456789abcdef".toList[place]?.map Char.toNat =
      some (if place < 10 then 48 + place else 87 + place) := by decide
  by_cases small : value < 16
  · have code := codes value small
    constructor
    · intro found
      rw [found, Option.map_some] at code
      exact ⟨small, Option.some.inj code⟩
    · rintro ⟨_, same⟩
      obtain ⟨e, found, code⟩ := Option.map_eq_some_iff.mp code
      rw [found, Char.toNat_inj.mp (code.trans same.symm)]
  · constructor
    · intro found
      have present := (List.getElem?_eq_some_iff.mp found).1
      exact absurd present small
    · exact fun found => absurd found.1 small

/-- The three ranges of the digits. -/
theorem digitOf_iff :
    DigitOf base c value ↔ value < base ∧ (c.toNat = 48 + value ∧ value < 10 ∨
      (c.toNat = 87 + value ∨ c.toNat = 55 + value) ∧ 10 ≤ value ∧ value < 16) := by
  rw [DigitOf, digitRow_eq_some_iff, toNat_toLower]
  refine and_congr_right fun _ => ?_
  split <;> split <;> omega

/-- Digits are read as their values. -/
theorem digitValue_eq_some_iff : digitValue base c = some value ↔ DigitOf base c value := by
  have decimal : ('0' ≤ c ∧ c ≤ '9') ↔ 48 ≤ c.toNat ∧ c.toNat ≤ 57 := by
    rw [Char.le_def, Char.le_def, UInt32.le_iff_toNat_le, UInt32.le_iff_toNat_le]
    rfl
  have small : ('a' ≤ c ∧ c ≤ 'f') ↔ 97 ≤ c.toNat ∧ c.toNat ≤ 102 := by
    rw [Char.le_def, Char.le_def, UInt32.le_iff_toNat_le, UInt32.le_iff_toNat_le]
    rfl
  have capital : ('A' ≤ c ∧ c ≤ 'F') ↔ 65 ≤ c.toNat ∧ c.toNat ≤ 70 := by
    rw [Char.le_def, Char.le_def, UInt32.le_iff_toNat_le, UInt32.le_iff_toNat_le]
    rfl
  have zero : '0'.toNat = 48 := rfl
  have smallA : 'a'.toNat = 97 := rfl
  have capitalA : 'A'.toNat = 65 := rfl
  rw [digitOf_iff, digitValue, Option.filter_eq_some_iff, decide_eq_true_eq, and_comm]
  refine and_congr_right fun _ => ?_
  simp only [Bool.and_eq_true, decide_eq_true_eq, decimal, small, capital, zero, smallA, capitalA]
  split
  · rw [Option.some.injEq]
    omega
  · split
    · rw [Option.some.injEq]
      omega
    · split
      · rw [Option.some.injEq]
        omega
      · constructor
        · exact nofun
        · omega

theorem digitValues_eq_some_iff :
    digitValues base text = some values ↔ DigitsOf base text values := by
  induction text generalizing values with
  | nil =>
    rw [digitValues, Option.some.injEq, DigitsOf, List.forall₂_nil_left_iff]
    exact eq_comm
  | cons c rest ih =>
    simp only [digitValues, Option.bind_eq_bind, Option.bind_eq_some_iff, Option.pure_def,
      Option.some.injEq, digitValue_eq_some_iff, ih, DigitsOf, List.forall₂_cons_left_iff]
    constructor
    · rintro ⟨value, digit, others, later, rfl⟩
      exact ⟨value, others, digit, later, rfl⟩
    · rintro ⟨value, others, digit, later, rfl⟩
      exact ⟨value, digit, others, later, rfl⟩

theorem DigitOf.unique {other : Nat} (digit : DigitOf base c value)
    (digitToo : DigitOf base c other) : value = other := by
  rw [digitOf_iff] at digit digitToo
  omega

theorem DigitsOf.lt (digits : DigitsOf base text values) : ∀ value ∈ values, value < base := by
  induction digits with
  | nil => exact nofun
  | cons digit _ ih =>
    intro value member
    rcases List.mem_cons.mp member with rfl | later
    · exact digit.1
    · exact ih value later

theorem DigitOf.lt_toNat (digit : DigitOf base c value) : c.toNat < 128 := by
  have range := (digitOf_iff.mp digit).2
  omega

theorem not_digitOf {code : Nat} (same : c.toNat = code)
    (outside : code < 48 ∨ 57 < code ∧ code < 65 ∨ 70 < code ∧ code < 97 ∨ 102 < code)
    (value : Nat) : ¬ DigitOf base c value := by
  intro digit
  have range := (digitOf_iff.mp digit).2
  omega

theorem DigitOf.ne_sign (digit : DigitOf base c value) : c ≠ '-' ∧ c ≠ '+' := by
  constructor
  · rintro rfl
    exact not_digitOf rfl (by decide) value digit
  · rintro rfl
    exact not_digitOf rfl (by decide) value digit

theorem DigitsOf.not_mem (digits : DigitsOf base text values)
    (other : ∀ value, ¬ DigitOf base c value) : c ∉ text := by
  induction digits with
  | nil => exact List.not_mem_nil
  | cons digit _ ih =>
    intro member
    rcases List.mem_cons.mp member with rfl | later
    · exact other _ digit
    · exact ih later

theorem numberOf_nil : numberOf base [] = 0 := Nat.ofDigits_nil

/-- Another digit at the end moves the digits before it one place up. -/
theorem numberOf_concat :
    numberOf base (values ++ [value]) = numberOf base values * base + value := by
  rw [numberOf, numberOf, List.reverse_append, List.reverse_singleton, List.singleton_append,
    Nat.ofDigits_cons, Nat.add_comm, Nat.mul_comm]

theorem numberOf_append (front back : List Nat) :
    numberOf base (front ++ back) =
      numberOf base front * base ^ back.length + numberOf base back := by
  rw [numberOf, numberOf, numberOf, List.reverse_append, Nat.ofDigits_append, List.length_reverse,
    Nat.add_comm, Nat.mul_comm]

theorem numberOf_eq_zero_iff (positive : 0 < base) :
    numberOf base values = 0 ↔ ∀ value ∈ values, value = 0 := by
  induction values using List.reverseRecOn with
  | nil => exact iff_of_true rfl nofun
  | append_singleton front last ih =>
    rw [numberOf_concat, Nat.add_eq_zero_iff, Nat.mul_eq_zero, ih, List.forall_mem_append,
      List.forall_mem_singleton]
    exact and_congr_left fun _ => or_iff_left positive.ne'

/-- The digits of a number are summed up from the first one on. -/
theorem ofDigits_eq (values : List Nat) : ofDigits base values = numberOf base values := by
  induction values using List.reverseRecOn with
  | nil => rfl
  | append_singleton front last ih =>
    rw [numberOf_concat, ← ih, ofDigits, ofDigits, List.foldl_append, List.foldl_cons,
      List.foldl_nil]

end Digits

/-! ## Markers -/

section Markers

variable {letter : Char} {body text digits : Text}

/-- ASCII characters are single bytes, and so none of them is divided. -/
theorem dividesCharacter_of_ascii (ascii : ∀ c ∈ text, c.toNat < 128) :
    dividesCharacter text = false := by
  have single (c : Char) (member : c ∈ text) : c.utf8Size = 1 := by
    have small := ascii c member
    rw [Char.utf8Size_eq_one_iff, UInt32.le_iff_toNat_le]
    change c.toNat ≤ 127
    omega
  cases text with
  | nil => rfl
  | cons a rest =>
    have first := single a List.mem_cons_self
    cases rest with
    | nil => simp [dividesCharacter, first]
    | cons b rest =>
      simp [dividesCharacter, first, single b (List.mem_cons_of_mem a List.mem_cons_self)]

theorem toLower_eq_iff {c small capital : Char} (range : 97 ≤ small.toNat ∧ small.toNat ≤ 122)
    (pair : small.toNat = capital.toNat + 32) : c.toLower = small ↔ c = small ∨ c = capital := by
  rw [← Char.toNat_inj, ← Char.toNat_inj, ← Char.toNat_inj, toNat_toLower]
  split <;> omega

theorem takeMarker_eq_some_iff :
    takeMarker letter body = .ok (some digits) ↔
      dividesCharacter body = false ∧ ∃ c, body = '0' :: c :: digits ∧ c.toLower = letter := by
  unfold takeMarker
  cases divides : dividesCharacter body with
  | true => simp
  | false =>
    rw [if_neg Bool.false_ne_true]
    split
    · rename_i c rest
      by_cases marked : c.toLower = letter
      · simp [marked]
      · rw [if_neg marked]
        simp only [Except.ok.injEq, reduceCtorEq, true_and, false_iff, not_exists, not_and]
        rintro d same
        cases same
        exact marked
    · rename_i unmarked
      simp only [Except.ok.injEq, reduceCtorEq, true_and, false_iff, not_exists, not_and]
      intro c same
      exact absurd same (unmarked c digits)

/-- A text that is not divided has the marker or has it not. -/
theorem takeMarker_eq_none (whole : dividesCharacter body = false)
    (unmarked : ∀ c rest, body = '0' :: c :: rest → c.toLower ≠ letter) :
    takeMarker letter body = .ok none := by
  unfold takeMarker
  rw [whole, if_neg Bool.false_ne_true]
  split
  · rename_i c rest
    rw [if_neg (unmarked c rest rfl)]
  · rfl

end Markers

/-! ## Signs -/

section Signs

variable {negative : Bool} {body text : Text}

/-- A text is what follows its sign behind the sign. -/
theorem signed_takeSign (text : Text) : Signed (takeSign text).2 (takeSign text).1 text := by
  unfold takeSign
  split
  · exact .minus
  · exact .plus
  · exact .bare

/-- One sign is taken from a text, and none from a body that begins with another character. -/
theorem Signed.takeSign_eq (signed : Signed body negative text)
    (unsigned : ∀ c, body.head? = some c → c ≠ '-' ∧ c ≠ '+') :
    takeSign text = (negative, body) := by
  cases signed with
  | plus => rfl
  | minus => rfl
  | bare =>
    cases body with
    | nil => rfl
    | cons c rest => exact takeSign_of_head_ne (unsigned c rfl).1 (unsigned c rfl).2

end Signs

end IPPcode24.Literal
