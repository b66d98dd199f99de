import IPPcode24.Literal.Integer
import IPPcode24.Proofs.Divided
import IPPcode24.Proofs.NumeralPieces

/-!
# The grammar of integers

The integer literals are described without reference to how they are read: a sign or none, a
marker of the base or none, and digits with single underscores between them. A text is read as
a 64-bit integer exactly if it is written for that integer. Of the other texts the divided ones
crash, and the rest have no value.
-/

namespace IPPcode24.Literal

/-- The text is digits with the values, and single underscores stand between some of them. -/
inductive Separated (base : Nat) : Text → List Nat → Prop where
  | last {c : Char} {value : Nat} (digit : DigitOf base c value) : Separated base [c] [value]
  | digit {c : Char} {value : Nat} {rest : Text} {values : List Nat}
      (digit : DigitOf base c value) (later : Separated base rest values) :
      Separated base (c :: rest) (value :: values)
  | underscore {c : Char} {value : Nat} {rest : Text} {values : List Nat}
      (digit : DigitOf base c value) (later : Separated base rest values) :
      Separated base (c :: '_' :: rest) (value :: values)

/-- The text without a sign is written for the magnitude. A lone zero is decimal, and more
digits after a zero are octal. -/
inductive MagnitudeText : Text → Nat → Prop where
  | hexadecimal {x : Char} {digits : Text} {values : List Nat} (letter : x = 'x' ∨ x = 'X')
      (separated : Separated 16 digits values) :
      MagnitudeText ('0' :: x :: digits) (numberOf 16 values)
  | octal {o : Char} {digits : Text} {values : List Nat} (letter : o = 'o' ∨ o = 'O')
      (separated : Separated 8 digits values) :
      MagnitudeText ('0' :: o :: digits) (numberOf 8 values)
  | afterZero {digits : Text} {values : List Nat} (separated : Separated 8 digits values) :
      MagnitudeText ('0' :: digits) (numberOf 8 values)
  | zero : MagnitudeText ['0'] 0
  | decimal {digits : Text} {values : List Nat} (separated : Separated 10 digits values)
      (noZero : digits.head? ≠ some '0') : MagnitudeText digits (numberOf 10 values)

/-- The text is written for the integer. -/
def IntegerText (text : Text) (n : Int) : Prop :=
  ∃ body negative magnitude, Signed body negative text ∧ MagnitudeText body magnitude ∧
    n = withSign negative magnitude

/-! ## Underscores -/

section Underscores

variable {base value : Nat} {c d : Char} {text rest : Text} {values : List Nat}

theorem DigitOf.ne_underscore (digit : DigitOf base c value) : c ≠ '_' := by
  rintro rfl
  exact not_digitOf rfl (by decide) value digit

/-- An underscore behind a digit has to be followed by well separated digits. -/
theorem wellSeparated_cons_underscore (digit : c ≠ '_') :
    wellSeparated (c :: '_' :: rest) = wellSeparated rest := by
  cases rest with
  | nil => simp [wellSeparated]
  | cons d rest =>
    have passes : hasDoubleUnderscore (c :: '_' :: d :: rest) =
        hasDoubleUnderscore ('_' :: d :: rest) := by simp [hasDoubleUnderscore, digit]
    by_cases underscore : d = '_'
    · subst underscore
      simp [wellSeparated, passes, hasDoubleUnderscore]
    · simp [wellSeparated, digit, underscore, passes, hasDoubleUnderscore]

theorem wellSeparated_cons_cons (digit : c ≠ '_') (other : d ≠ '_') :
    wellSeparated (c :: d :: rest) = wellSeparated (d :: rest) := by
  simp [wellSeparated, hasDoubleUnderscore, digit, other]

theorem wellSeparated_singleton : wellSeparated [c] = true ↔ c ≠ '_' := by
  simp [wellSeparated, hasDoubleUnderscore]

theorem ne_underscore_of_wellSeparated (separated : wellSeparated (c :: rest) = true) :
    c ≠ '_' := by
  rintro rfl
  simp [wellSeparated] at separated

theorem filter_cons (digit : c ≠ '_') :
    (c :: rest).filter (· ≠ '_') = c :: rest.filter (· ≠ '_') :=
  List.filter_cons_of_pos (by simpa using digit)

theorem filter_underscore : ('_' :: rest).filter (· ≠ '_') = rest.filter (· ≠ '_') :=
  List.filter_cons_of_neg (by simp)

theorem Separated.exists_cons (separated : Separated base text values) :
    ∃ c value rest, text = c :: rest ∧ DigitOf base c value := by
  cases separated with
  | last digit => exact ⟨_, _, _, rfl, digit⟩
  | digit digit _ => exact ⟨_, _, _, rfl, digit⟩
  | underscore digit _ => exact ⟨_, _, _, rfl, digit⟩

theorem Separated.wellSeparated (separated : Separated base text values) :
    wellSeparated text = true := by
  induction separated with
  | last digit => exact wellSeparated_singleton.mpr digit.ne_underscore
  | digit digit later ih =>
    obtain ⟨d, _, rest, rfl, next⟩ := later.exists_cons
    rw [wellSeparated_cons_cons digit.ne_underscore next.ne_underscore]
    exact ih
  | underscore digit _ ih =>
    rw [wellSeparated_cons_underscore digit.ne_underscore]
    exact ih

/-- Without the underscores the digits are left. -/
theorem Separated.digitsOf (separated : Separated base text values) :
    DigitsOf base (text.filter (· ≠ '_')) values := by
  induction separated with
  | last digit =>
    rw [filter_cons digit.ne_underscore]
    exact .cons digit .nil
  | digit digit _ ih =>
    rw [filter_cons digit.ne_underscore]
    exact .cons digit ih
  | underscore digit _ ih =>
    rw [filter_cons digit.ne_underscore, filter_underscore]
    exact .cons digit ih

theorem separated_of_wellSeparated (separated : wellSeparated text = true)
    (digits : DigitsOf base (text.filter (· ≠ '_')) values) : Separated base text values := by
  -- an underscore is passed together with the digit before it
  induction text using List.twoStepInduction generalizing values with
  | nil => cases separated
  | singleton c =>
    have other := wellSeparated_singleton.mp separated
    rw [filter_cons other] at digits
    cases digits with
    | cons digit nothing =>
      cases nothing
      exact .last digit
  | cons_cons c d rest ihRest ih =>
    have other := ne_underscore_of_wellSeparated separated
    rw [filter_cons other] at digits
    cases digits with
    | cons digit digits =>
      by_cases underscore : d = '_'
      · subst underscore
        rw [wellSeparated_cons_underscore other] at separated
        rw [filter_underscore] at digits
        exact .underscore digit (ihRest separated digits)
      · rw [wellSeparated_cons_cons other underscore] at separated
        exact .digit digit (ih d separated digits)

end Underscores

/-! ## Bases -/

section Bases

variable {base value magnitude : Nat} {c : Char} {body digits text : Text} {values : List Nat}

theorem Separated.ascii (separated : Separated base text values) : ∀ c ∈ text, c.toNat < 128 := by
  induction separated with
  | last digit => exact List.forall_mem_singleton.mpr digit.lt_toNat
  | digit digit _ ih => exact List.forall_mem_cons.mpr ⟨digit.lt_toNat, ih⟩
  | underscore digit _ ih =>
    exact List.forall_mem_cons.mpr
      ⟨digit.lt_toNat, List.forall_mem_cons.mpr ⟨by decide, ih⟩⟩

theorem MagnitudeText.ascii (written : MagnitudeText body magnitude) :
    ∀ c ∈ body, c.toNat < 128 := by
  have marked {base : Nat} {digits : Text} {values : List Nat} {letter : Char}
      (small : letter.toNat < 128) (separated : Separated base digits values) :
      ∀ c ∈ '0' :: letter :: digits, c.toNat < 128 :=
    List.forall_mem_cons.mpr ⟨by decide, List.forall_mem_cons.mpr ⟨small, separated.ascii⟩⟩
  cases written with
  | hexadecimal letter separated =>
    rcases letter with rfl | rfl <;> exact marked (by decide) separated
  | octal letter separated =>
    rcases letter with rfl | rfl <;> exact marked (by decide) separated
  | afterZero separated => exact List.forall_mem_cons.mpr ⟨by decide, separated.ascii⟩
  | zero => exact List.forall_mem_singleton.mpr (by decide)
  | decimal separated _ => exact separated.ascii

theorem MagnitudeText.unsigned (written : MagnitudeText body magnitude) :
    ∀ c, body.head? = some c → c ≠ '-' ∧ c ≠ '+' := by
  intro c first
  cases written with
  | hexadecimal | octal | afterZero | zero =>
    cases first
    decide
  | decimal separated _ =>
    obtain ⟨d, value, rest, rfl, digit⟩ := separated.exists_cons
    cases first
    exact digit.ne_sign

/-- A digit is no marker. -/
theorem DigitOf.toLower_ne {letter : Char} (digit : DigitOf 8 c value) (range : 97 ≤ letter.toNat) :
    c.toLower ≠ letter := by
  rintro rfl
  have code := digitOf_iff.mp digit
  rw [toNat_toLower] at range
  split at range <;> omega

theorem toLower_eq_x : c.toLower = 'x' ↔ c = 'x' ∨ c = 'X' :=
  toLower_eq_iff (by decide) (by decide)

theorem toLower_eq_o : c.toLower = 'o' ↔ c = 'o' ∨ c = 'O' :=
  toLower_eq_iff (by decide) (by decide)

/-- What is taken for the digits of a base has been written for their number. -/
theorem magnitudeText_of_baseAndDigits (taken : baseAndDigits body = .ok (base, digits))
    (separated : Separated base digits values) : MagnitudeText body (numberOf base values) := by
  obtain ⟨marked?, first, taken⟩ := Chain.bind_eq_ok.mp taken
  cases marked? with
  | some marked =>
    cases taken
    obtain ⟨_, x, rfl, letter⟩ := takeMarker_eq_some_iff.mp first
    exact .hexadecimal (toLower_eq_x.mp letter) separated
  | none =>
    obtain ⟨marked?, second, taken⟩ := Chain.bind_eq_ok.mp taken
    cases marked? with
    | some marked =>
      cases taken
      obtain ⟨_, o, rfl, letter⟩ := takeMarker_eq_some_iff.mp second
      exact .octal (toLower_eq_o.mp letter) separated
    | none =>
      simp only at taken
      split at taken
      · cases taken
        exact .afterZero separated
      · rename_i noZero
        cases taken
        -- a zero before other digits has been taken off, so a leading zero stands alone
        by_cases zero : body.head? = some '0'
        · obtain ⟨rest, rfl⟩ := List.head?_eq_some_iff.mp zero
          cases rest with
          | cons c rest => exact absurd rfl (noZero c rest)
          | nil =>
            cases separated with
            | last digit =>
              have none : DigitOf 10 '0' 0 := by decide
              rw [digit.unique none]
              exact .zero
            | digit _ later => cases later
        · exact .decimal separated zero

/-- What has been written for a magnitude is taken for the digits of its base. -/
theorem MagnitudeText.exists_baseAndDigits (written : MagnitudeText body magnitude) :
    ∃ base digits values, baseAndDigits body = .ok (base, digits) ∧
      Separated base digits values ∧ magnitude = numberOf base values := by
  have whole := dividesCharacter_of_ascii written.ascii
  unfold baseAndDigits
  cases written with
  | @hexadecimal x digits values letter separated =>
    have taken : takeMarker 'x' ('0' :: x :: digits) = .ok (some digits) :=
      takeMarker_eq_some_iff.mpr ⟨whole, x, rfl, toLower_eq_x.mpr letter⟩
    exact ⟨16, digits, values, by rw [taken]; rfl, separated, rfl⟩
  | @octal o digits values letter separated =>
    have taken : takeMarker 'o' ('0' :: o :: digits) = .ok (some digits) :=
      takeMarker_eq_some_iff.mpr ⟨whole, o, rfl, toLower_eq_o.mpr letter⟩
    have other : takeMarker 'x' ('0' :: o :: digits) = .ok none := by
      refine takeMarker_eq_none whole fun c rest same => ?_
      cases same
      rcases letter with rfl | rfl <;> decide
    exact ⟨8, digits, values, by rw [other, Chain.bind_ok, taken]; rfl, separated, rfl⟩
  | @afterZero digits values separated =>
    obtain ⟨c, value, rest, rfl, digit⟩ := separated.exists_cons
    have unmarked {letter : Char} (range : 97 ≤ letter.toNat) :
        takeMarker letter ('0' :: c :: rest) = .ok none := by
      refine takeMarker_eq_none whole fun d others same => ?_
      cases same
      exact digit.toLower_ne range
    refine ⟨8, c :: rest, values, ?_, separated, rfl⟩
    rw [unmarked (by decide), Chain.bind_ok, unmarked (by decide)]
    rfl
  | zero => exact ⟨10, ['0'], [0], rfl, .last (by decide), rfl⟩
  | @decimal digits values separated noZero =>
    have unmarked (letter : Char) : takeMarker letter body = .ok none := by
      refine takeMarker_eq_none whole fun c rest same => ?_
      rw [same] at noZero
      exact absurd rfl noZero
    refine ⟨10, body, values, ?_, separated, rfl⟩
    rw [unmarked, Chain.bind_ok, unmarked, Chain.bind_ok]
    simp only
    split
    · exact absurd rfl noZero
    · rfl

end Bases

/-! ## Integers -/

/-- The magnitude of a 64-bit integer may be one larger below zero than above. -/
theorem signedInteger_eq_some_iff {negative : Bool} {magnitude : Nat} {n : Int64} :
    signedInteger negative magnitude = some n ↔ n.toInt = withSign negative magnitude := by
  have least := n.le_toInt
  have greatest := n.toInt_lt
  have ofInt {m : Int} (low : -2 ^ 63 ≤ m) (high : m < 2 ^ 63) :
      Int64.ofInt m = n ↔ n.toInt = m := by
    rw [← Int64.toInt_inj, Int64.toInt_ofInt_of_le low high]
    exact eq_comm
  unfold signedInteger withSign
  cases negative with
  | true =>
    rw [if_pos rfl, if_pos rfl]
    split
    · rw [Option.some.injEq, ofInt (by omega) (by omega)]
    · constructor
      · exact nofun
      · omega
  | false =>
    rw [if_neg Bool.false_ne_true, if_neg Bool.false_ne_true]
    split
    · rw [Option.some.injEq, ofInt (by omega) (by omega)]
    · constructor
      · exact nofun
      · omega

/-- An integer is read from a text that has been written for it, and from no other. -/
theorem parseInt_eq_some_iff {text : Text} {n : Int64} :
    parseInt text = .ok (some n) ↔ IntegerText text n.toInt := by
  constructor
  · intro read
    obtain ⟨⟨base, digits⟩, taken, read⟩ := Chain.bind_eq_ok.mp read
    simp only at read
    split at read
    · rename_i separated
      obtain ⟨values, valued, given⟩ := Option.bind_eq_some_iff.mp (Except.ok.inj read)
      rw [ofDigits_eq] at given
      have written := magnitudeText_of_baseAndDigits taken
        (separated_of_wellSeparated separated (digitValues_eq_some_iff.mp valued))
      exact ⟨_, _, _, signed_takeSign text, written, signedInteger_eq_some_iff.mp given⟩
    · cases read
  · rintro ⟨body, negative, magnitude, signed, written, value⟩
    obtain ⟨base, digits, values, taken, separated, rfl⟩ := written.exists_baseAndDigits
    have valued := digitValues_eq_some_iff.mpr separated.digitsOf
    simp only [parseInt, signed.takeSign_eq written.unsigned, taken, Chain.bind_ok,
      separated.wellSeparated, if_true, valued, ofDigits_eq, Chain.pure_eq_ok]
    exact congrArg Except.ok (signedInteger_eq_some_iff.mpr value)

/-- Every text is read in one of three ways. It has the value of a 64-bit integer exactly if it
is written for that integer. It crashes exactly if it is divided. Otherwise it is written for no
integer, or for one that is out of range, and has no value. -/
theorem integers_are_read_exactly (text : Text) :
    (∀ n : Int64, parseInt text = .ok (some n) ↔ IntegerText text n.toInt) ∧
      (∀ crash, parseInt text = .error crash ↔ crash = .dividedCharacter ∧ Divided text) ∧
      (parseInt text = .ok none ↔
        ¬ Divided text ∧ ∀ n, IntegerText text n → n < -2 ^ 63 ∨ 2 ^ 63 ≤ n) := by
  refine ⟨fun n => parseInt_eq_some_iff, fun crash => parseInt_eq_error, ?_⟩
  constructor
  · intro none
    constructor
    · intro divided
      rw [parseInt_eq_error.mpr ⟨rfl, divided⟩] at none
      cases none
    · intro n written
      by_contra inRange
      rw [not_or, Int.not_lt, Int.not_le] at inRange
      have same : (Int64.ofInt n).toInt = n := Int64.toInt_ofInt_of_le inRange.1 inRange.2
      rw [parseInt_eq_some_iff.mpr (same.symm ▸ written)] at none
      cases none
  · rintro ⟨whole, outside⟩
    cases read : parseInt text with
    | error crash => exact absurd (parseInt_eq_error.mp read).2 whole
    | ok value? =>
      cases value? with
      | none => rfl
      | some n =>
        have least := n.le_toInt
        have greatest := n.toInt_lt
        have range := outside n.toInt (parseInt_eq_some_iff.mp read)
        omega

example : IntegerText ['-', '0', 'X', '1', '_', 'f'] (-31) :=
  have one : DigitOf 16 '1' 1 := by decide
  have fifteen : DigitOf 16 'f' 15 := by decide
  ⟨_, true, 31, .minus, .hexadecimal (Or.inr rfl) (.underscore one (.last fifteen)), rfl⟩

end IPPcode24.Literal
