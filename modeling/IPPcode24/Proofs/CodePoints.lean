import IPPcode24.Proofs.CharacterCells

/-!
# Code points

The conversions between characters and integers go by the code points, and each of them undoes
the other one. Every character has a code point. The other way, the integers that have a
character are the Unicode scalar values, and every other 64-bit integer is refused.
-/

namespace IPPcode24

/-- A code point of Unicode that is no surrogate. -/
def IsScalarValue (code : Int) : Prop :=
  0 ≤ code ∧ code ≤ 0x10FFFF ∧ ¬ (0xD800 ≤ code ∧ code ≤ 0xDFFF)

instance (code : Int) : Decidable (IsScalarValue code) :=
  inferInstanceAs (Decidable (_ ∧ _ ∧ ¬ (_ ∧ _)))

/-- The code point of a character, as an integer. -/
def codeOf (c : Char) : Int64 := Int64.ofNat c.toNat

section Characters

variable {c : Char} {code : Int64}

theorem isValidChar_iff {code : Int} (natural : 0 ≤ code) :
    code.toNat.isValidChar ↔ IsScalarValue code := by
  rw [Nat.isValidChar, IsScalarValue]
  omega

theorem isScalarValue_toNat (c : Char) : IsScalarValue c.toNat := by
  rw [← isValidChar_iff (Int.natCast_nonneg _)]
  exact c.valid

theorem toInt_codeOf (c : Char) : (codeOf c).toInt = c.toNat := by
  have bound := (isScalarValue_toNat c).2.1
  exact Int64.toInt_ofNat_of_lt (by omega)

theorem toNat_charOfNat {n : Nat} (valid : n.isValidChar) : (Char.ofNat n).toNat = n := by
  rw [Char.ofNat, dif_pos valid]
  exact UInt32.toNat_ofNatLT

/-- The scalar values have a character, and nothing else does. -/
theorem ofCodePoint_eq (code : Int64) :
    Text.ofCodePoint code =
      if IsScalarValue code.toInt then .ok (Char.ofNat code.toInt.toNat)
      else .error (.character (.notCodePoint code)) := by
  rw [Text.ofCodePoint, Text.position?]
  by_cases natural : 0 ≤ code.toInt
  · rw [if_pos natural, Option.filter_some]
    simp only [isValidChar_iff natural, decide_eq_true_eq]
    by_cases scalar : IsScalarValue code.toInt
    · rw [if_pos scalar, if_pos scalar]
    · rw [if_neg scalar, if_neg scalar]
  · have negative : ¬ IsScalarValue code.toInt := fun scalar => natural scalar.1
    rw [if_neg natural, if_neg negative]
    rfl

theorem exists_ofCodePoint_iff :
    (∃ c, Text.ofCodePoint code = .ok c) ↔ IsScalarValue code.toInt := by
  rw [ofCodePoint_eq]
  split <;> simp [*]

/-- A character is made of its own code point and of no other integer. -/
theorem ofCodePoint_eq_ok_iff : Text.ofCodePoint code = .ok c ↔ code = codeOf c := by
  rw [← Int64.toInt_inj, toInt_codeOf, ofCodePoint_eq]
  constructor
  · intro made
    split at made
    · next scalar =>
      rw [← Except.ok.inj made, toNat_charOfNat ((isValidChar_iff scalar.1).mpr scalar),
        Int.toNat_of_nonneg scalar.1]
    · cases made
  · intro same
    rw [same, if_pos (isScalarValue_toNat c), Int.toNat_natCast, Char.ofNat_toNat]

end Characters

/-! ## Instructions -/

/-- STRI2INT and its twin of the stack family. -/
def Opcode.charToInts : List Opcode := [.stri2Int, .stri2Ints]

/-- INT2CHAR and its twin of the stack family. -/
def Opcode.intToChars : List Opcode := [.int2Char, .int2Chars]

section Instructions

variable {machine : Machine} {target symbol first second : Operand} {opcode : Opcode}
  {text index : Value} {code : Int64} {c : Char}

theorem Opcode.action_of_mem_charToInts (twin : opcode ∈ charToInts) :
    opcode ∈ computing ∧ opcode.action = .charToInt ∧
      opcode.signature = [.var, .symbol, .symbol] := by
  revert twin
  cases opcode <;> decide

theorem Opcode.action_of_mem_intToChars (twin : opcode ∈ intToChars) :
    opcode ∈ computing ∧ opcode.action = .intToChar ∧ opcode.signature = [.var, .symbol] := by
  revert twin
  cases opcode <;> decide

/-- Two values name a character of a text, or there is a fault in them. -/
theorem exists_characterOf (text index : Value) :
    ∃ result, characterOf text index = orError result := by
  rw [characterOf]
  cases text.asText with
  | error fault => exact ⟨.error fault, rfl⟩
  | ok letters =>
    cases index.asInt with
    | error fault => exact ⟨.error fault, rfl⟩
    | ok position => exact ⟨(letters.charAt position).mapError OperationError.fault, rfl⟩

theorem assign_of_character (result : Except Fault Char) (make : Char → Value) :
    (do let c ← orError result
        return Outcome.assign (make c)) = (orError (result.map make)).map Outcome.assign := by
  cases result <;> rfl

theorem Machine.Supplies.yields_character {result : Except Fault Char}
    (supplies : machine.Supplies target [first, second] [text, index])
    (named : characterOf text index = orError result) :
    machine.Yields .getChar target [first, second] (result.map fun c => .string [c]) := by
  refine supplies.yields (by decide) rfl ?_
  simp only [Opcode.action, Action.outcome, onTwo, named]
  exact assign_of_character result fun c => .string [c]

theorem Machine.Supplies.yields_charToInt {result : Except Fault Char}
    (supplies : machine.Supplies target [first, second] [text, index])
    (twin : opcode ∈ Opcode.charToInts) (named : characterOf text index = orError result) :
    machine.Yields opcode target [first, second] (result.map fun c => .int (codeOf c)) := by
  obtain ⟨computing, action, slots⟩ := Opcode.action_of_mem_charToInts twin
  refine supplies.yields computing slots ?_
  simp only [action, Action.outcome, onTwo, named]
  exact assign_of_character result fun c => .int (codeOf c)

theorem Machine.Supplies.yields_intToChar (supplies : machine.Supplies target [symbol] [.int code])
    (twin : opcode ∈ Opcode.intToChars) :
    machine.Yields opcode target [symbol]
      (((Text.ofCodePoint code).mapError OperationError.fault).map fun c => .string [c]) := by
  obtain ⟨computing, action, slots⟩ := Opcode.action_of_mem_intToChars twin
  refine supplies.yields computing slots ?_
  simp only [action, Action.outcome, onOne, Value.asInt, orError_ok, Chain.bind_ok]
  exact assign_of_operation (Text.ofCodePoint code) fun c => .string [c]

/-- What INT2CHAR makes is the text of a single character that has the code point. -/
theorem Machine.Supplies.exists_character {value : Value}
    (supplies : machine.Supplies target [symbol] [.int code]) (twin : opcode ∈ Opcode.intToChars)
    (made : machine.Yields opcode target [symbol] (.ok value)) :
    ∃ c, value = .string [c] ∧ code = codeOf c := by
  have result := made.unique (supplies.yields_intToChar twin)
  cases taken : Text.ofCodePoint code with
  | error error =>
    rw [taken] at result
    cases result
  | ok c =>
    rw [taken] at result
    cases result
    exact ⟨c, rfl, ofCodePoint_eq_ok_iff.mp taken⟩

theorem Machine.Supplies.yields_scalarValue
    (supplies : machine.Supplies target [symbol] [.int (codeOf c)])
    (twin : opcode ∈ Opcode.intToChars) :
    machine.Yields opcode target [symbol] (.ok (.string [c])) := by
  have made := supplies.yields_intToChar twin
  rwa [ofCodePoint_eq_ok_iff.mpr rfl] at made

theorem Machine.Supplies.exists_yields_intToChar_iff
    (supplies : machine.Supplies target [symbol] [.int code])
    (twin : opcode ∈ Opcode.intToChars) :
    (∃ value, machine.Yields opcode target [symbol] (.ok value)) ↔ IsScalarValue code.toInt := by
  constructor
  · rintro ⟨value, made⟩
    obtain ⟨c, _, rfl⟩ := supplies.exists_character twin made
    rw [toInt_codeOf]
    exact isScalarValue_toNat c
  · intro scalar
    obtain ⟨c, taken⟩ := exists_ofCodePoint_iff.mpr scalar
    rw [ofCodePoint_eq_ok_iff.mp taken] at supplies
    exact ⟨_, supplies.yields_scalarValue twin⟩

theorem Machine.Supplies.yields_notCodePoint
    (supplies : machine.Supplies target [symbol] [.int code])
    (twin : opcode ∈ Opcode.intToChars) (none : ¬ IsScalarValue code.toInt) :
    machine.Yields opcode target [symbol] (.error (.character (.notCodePoint code))) := by
  have made := supplies.yields_intToChar twin
  rwa [ofCodePoint_eq, if_neg none] at made

/-- The code point of a single character is at the position zero. -/
theorem Machine.Supplies.yields_codeOf
    (supplies : machine.Supplies target [first, second] [.string [c], .int 0])
    (twin : opcode ∈ Opcode.charToInts) :
    machine.Yields opcode target [first, second] (.ok (.int (codeOf c))) := by
  have named : characterOf (.string [c]) (.int 0) = orError (.ok c) := rfl
  exact supplies.yields_charToInt twin named

theorem Machine.Supplies.yields_length_one
    (supplies : machine.Supplies target [first] [.string [c]]) :
    machine.Yields .strLen target [first] (.ok (.int 1)) := by
  have short : [c].length < 0x8000000000000000 := by
    rw [List.length_singleton]
    decide
  obtain ⟨n, counts, yields⟩ := supplies.yields_strLen short
  have one : n = 1 := Int64.toInt_inj.mp counts
  rwa [one] at yields

end Instructions

end IPPcode24
