import IPPcode24.Instruction

/-!
# Mnemonics

A mnemonic is known when its letters are those of an opcode's own mnemonic. No two
opcodes share their letters, so the search for an opcode finds the only one that
fits, a label instruction is one whose opcode is LABEL, and a known mnemonic in
capitals is the opcode's own one.
-/

namespace IPPcode24

/-! ## Letter case -/

theorem isUpper_iff {c : Char} : c.isUpper = true ↔ 65 ≤ c.toNat ∧ c.toNat ≤ 90 :=
  decide_eq_true_iff

theorem isLower_iff {c : Char} : c.isLower = true ↔ 97 ≤ c.toNat ∧ c.toNat ≤ 122 :=
  Bool.and_eq_true_iff.trans (and_congr decide_eq_true_iff decide_eq_true_iff)

theorem isDigit_iff {c : Char} : c.isDigit = true ↔ 48 ≤ c.toNat ∧ c.toNat ≤ 57 :=
  Bool.and_eq_true_iff.trans (and_congr decide_eq_true_iff decide_eq_true_iff)

theorem toNat_toLower (c : Char) :
    c.toLower.toNat = if 65 ≤ c.toNat ∧ c.toNat ≤ 90 then c.toNat + 32 else c.toNat := by
  have range : c.val ≥ 'A'.val ∧ c.val ≤ 'Z'.val ↔ 65 ≤ c.toNat ∧ c.toNat ≤ 90 := by
    rw [ge_iff_le, UInt32.le_iff_toNat_le, UInt32.le_iff_toNat_le]
    rfl
  unfold Char.toLower
  split
  · rename_i upper
    rw [if_pos (range.mp upper)]
    have bound := range.mp upper
    change (c.val + 32).toNat = c.val.toNat + 32
    rw [UInt32.toNat_add]
    exact Nat.mod_eq_of_lt (by simp; omega)
  · rename_i other
    rw [if_neg (fun upper => other (range.mpr upper))]

theorem toNat_toUpper (c : Char) :
    c.toUpper.toNat = if 97 ≤ c.toNat ∧ c.toNat ≤ 122 then c.toNat - 32 else c.toNat := by
  have range : 'a'.val ≤ c.val ∧ c.val ≤ 'z'.val ↔ 97 ≤ c.toNat ∧ c.toNat ≤ 122 := by
    rw [UInt32.le_iff_toNat_le, UInt32.le_iff_toNat_le]
    rfl
  unfold Char.toUpper
  split
  · rename_i lower
    rw [if_pos (range.mp lower)]
    have bound := range.mp lower
    change (c.val + 4294967264).toNat = c.val.toNat - 32
    rw [UInt32.toNat_add]
    simp
    omega
  · rename_i other
    rw [if_neg (fun lower => other (range.mpr lower))]

/-- A character with the lower case of a capital or of a digit is an ASCII character,
and its capital is that character. -/
theorem toUpper_of_toLower_eq {c d : Char} (same : c.toLower = d.toLower)
    (capital : d.isUpper = true ∨ d.isDigit = true) : c.toNat < 128 ∧ c.toUpper = d := by
  have sameCode := congrArg (fun e : Char => e.toNat) same
  rw [← Char.toNat_inj]
  rw [isUpper_iff, isDigit_iff] at capital
  simp only [toNat_toLower] at sameCode
  rw [toNat_toUpper]
  split at sameCode <;> split at sameCode <;> split <;> omega

theorem sameLetters_iff {a b : Text} : Text.sameLetters a b = true ↔ Text.fold a = Text.fold b := by
  rw [Text.sameLetters, beq_iff_eq]

/-- A text with the letters of a text of capitals and digits has that text as its
capitals. -/
theorem capitals_of_sameLetters {name text : Text}
    (capital : ∀ c ∈ name, c.isUpper = true ∨ c.isDigit = true)
    (same : Text.fold name = Text.fold text) : Text.capitals text = name := by
  induction name generalizing text with
  | nil =>
    rw [List.map_eq_nil_iff.mp same.symm]
    rfl
  | cons d name ih =>
    obtain ⟨c, rest, rfl, sameFirst, sameRest⟩ := List.map_eq_cons_iff.mp same.symm
    obtain ⟨ascii, upper⟩ := toUpper_of_toLower_eq sameFirst (capital d List.mem_cons_self)
    have others : Text.capitals rest = name :=
      ih (fun e member => capital e (List.mem_cons_of_mem d member)) sameRest.symm
    rw [Text.capitals, List.flatMap_cons, Text.capital_of_ascii ascii, upper]
    exact congrArg (d :: ·) others

/-! ## Opcodes by their mnemonics -/

namespace Opcode

@[simp] theorem ofMnemonic?_mnemonic (opcode : Opcode) :
    ofMnemonic? opcode.mnemonic.toList = some opcode := by
  cases opcode <;> rfl

/-- The search looks at the letters alone, so what it finds is the only opcode with
these letters. -/
theorem ofMnemonic?_eq_some_iff {text : Text} {opcode : Opcode} :
    ofMnemonic? text = some opcode ↔ Text.sameLetters opcode.mnemonic.toList text = true := by
  constructor
  · exact List.find?_some
  · intro same
    have sameSearch : ofMnemonic? text = ofMnemonic? opcode.mnemonic.toList := by
      simp only [ofMnemonic?, Text.sameLetters, sameLetters_iff.mp same]
    rw [sameSearch, ofMnemonic?_mnemonic]

theorem capital_of_mem_mnemonic {opcode : Opcode} {c : Char}
    (member : c ∈ opcode.mnemonic.toList) : c.isUpper = true ∨ c.isDigit = true := by
  have every : opcode.mnemonic.toList.all (fun c => c.isUpper || c.isDigit) = true := by
    cases opcode <;> rfl
  exact Bool.or_eq_true_iff.mp (List.all_eq_true.mp every c member)

theorem capitals_of_ofMnemonic? {text : Text} {opcode : Opcode}
    (known : ofMnemonic? text = some opcode) :
    Text.capitals text = opcode.mnemonic.toList :=
  capitals_of_sameLetters (fun _ => capital_of_mem_mnemonic)
    (sameLetters_iff.mp (ofMnemonic?_eq_some_iff.mp known))

end Opcode

theorem Instruction.isLabel_iff {instruction : Instruction} :
    instruction.isLabel = true ↔ instruction.opcode? = some .label :=
  Opcode.ofMnemonic?_eq_some_iff.symm

end IPPcode24
