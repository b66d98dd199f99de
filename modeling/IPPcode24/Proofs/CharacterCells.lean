import IPPcode24.Proofs.Computations
import IPPcode24.Proofs.ValueVerdicts

/-!
# The characters of a text as cells

The characters of a text are cells that can be read and written by their position. There are as
many as STRLEN counts, no others can be read or written, and a write changes one of them and
neither the others nor their number. The cells of a joined text are those of its two parts.
-/

namespace IPPcode24

namespace Text

section Cells

variable {text changed result replacement second more : Text} {index other : Int64} {c : Char}

/-- The position is that of a character. -/
def HasCell (text : Text) (index : Int64) : Prop :=
  0 ≤ index.toInt ∧ index.toInt < text.length

theorem charAt_eq_ok_iff :
    text.charAt index = .ok c ↔ 0 ≤ index.toInt ∧ text[index.toInt.toNat]? = some c := by
  unfold charAt position?
  by_cases natural : 0 ≤ index.toInt
  · rw [if_pos natural, Option.bind_some]
    cases text[index.toInt.toNat]? <;> simp [natural]
  · simp [natural]

theorem exists_charAt_iff : (∃ c, text.charAt index = .ok c) ↔ text.HasCell index := by
  simp only [charAt_eq_ok_iff]
  constructor
  · rintro ⟨c, natural, found⟩
    have within := (List.getElem?_eq_some_iff.mp found).1
    exact ⟨natural, by omega⟩
  · rintro ⟨natural, within⟩
    have bound : index.toInt.toNat < text.length := by omega
    exact ⟨text[index.toInt.toNat], natural, List.getElem?_eq_getElem bound⟩

/-- A write takes the first character of the replacement, and there must be one. -/
theorem setCharAt_eq_ok_iff :
    text.setCharAt index replacement = .ok changed ↔
      ∃ c, replacement.head? = some c ∧ text.HasCell index ∧
        changed = text.set index.toInt.toNat c := by
  cases replacement with
  | nil => simp [setCharAt]
  | cons c rest =>
    rw [setCharAt, position?_filter]
    by_cases within : 0 ≤ index.toInt ∧ index.toInt < text.length
    · rw [if_pos within]
      simp [HasCell, within, eq_comm]
    · rw [if_neg within]
      simp [HasCell, within]

theorem exists_setCharAt_iff :
    (∃ changed, text.setCharAt index replacement = .ok changed) ↔
      replacement ≠ [] ∧ text.HasCell index := by
  simp only [setCharAt_eq_ok_iff]
  constructor
  · rintro ⟨changed, c, first, within, _⟩
    refine ⟨?_, within⟩
    rintro rfl
    cases first
  · rintro ⟨nonempty, within⟩
    obtain ⟨c, rest, rfl⟩ := List.exists_cons_of_ne_nil nonempty
    exact ⟨_, c, rfl, within, rfl⟩

theorem length_of_setCharAt (written : text.setCharAt index replacement = .ok changed) :
    changed.length = text.length := by
  obtain ⟨c, _, _, rfl⟩ := setCharAt_eq_ok_iff.mp written
  exact List.length_set

theorem hasCell_of_setCharAt (written : text.setCharAt index replacement = .ok changed) :
    changed.HasCell other ↔ text.HasCell other := by
  rw [HasCell, HasCell, length_of_setCharAt written]

/-- Different integers that are positions are different positions. -/
theorem toNat_ne_of_ne (apart : other ≠ index) (natural : 0 ≤ other.toInt)
    (cell : text.HasCell index) : index.toInt.toNat ≠ other.toInt.toNat := by
  have different : other.toInt ≠ index.toInt := fun same => apart (Int64.toInt_inj.mp same)
  have positive := cell.1
  omega

theorem charAt_written (written : text.setCharAt index replacement = .ok changed) :
    ∃ c, replacement.head? = some c ∧ changed.charAt index = .ok c := by
  obtain ⟨c, first, cell, rfl⟩ := setCharAt_eq_ok_iff.mp written
  refine ⟨c, first, charAt_eq_ok_iff.mpr ⟨cell.1, ?_⟩⟩
  obtain ⟨natural, within⟩ := cell
  exact List.getElem?_set_self (by omega)

/-- The other cells are not touched, and what is no cell does not become one. -/
theorem charAt_other (written : text.setCharAt index replacement = .ok changed)
    (apart : other ≠ index) : changed.charAt other = text.charAt other := by
  have length := length_of_setCharAt written
  obtain ⟨c, _, cell, rfl⟩ := setCharAt_eq_ok_iff.mp written
  unfold charAt position?
  rw [length]
  by_cases natural : 0 ≤ other.toInt
  · rw [if_pos natural, Option.bind_some, Option.bind_some,
      List.getElem?_set_ne (toNat_ne_of_ne apart natural cell)]
  · rw [if_neg natural]
    rfl

/-- Writing what is there already changes nothing. -/
theorem setCharAt_charAt (read : text.charAt index = .ok c) (rest : Text) :
    text.setCharAt index (c :: rest) = .ok text := by
  obtain ⟨natural, found⟩ := charAt_eq_ok_iff.mp read
  obtain ⟨within, same⟩ := List.getElem?_eq_some_iff.mp found
  refine setCharAt_eq_ok_iff.mpr ⟨c, rfl, exists_charAt_iff.mp ⟨c, read⟩, ?_⟩
  rw [← same, List.set_getElem_self]

theorem setCharAt_again (written : text.setCharAt index replacement = .ok changed)
    (second : Text) : changed.setCharAt index second = text.setCharAt index second := by
  have cells : changed.HasCell index ↔ text.HasCell index := hasCell_of_setCharAt written
  obtain ⟨c, _, cell, rfl⟩ := setCharAt_eq_ok_iff.mp written
  cases second with
  | nil => rfl
  | cons d rest =>
    have direct : text.setCharAt index (d :: rest) = .ok (text.set index.toInt.toNat d) :=
      setCharAt_eq_ok_iff.mpr ⟨d, rfl, cell, rfl⟩
    rw [direct, setCharAt_eq_ok_iff]
    exact ⟨d, rfl, cells.mpr cell, (List.set_set c).symm⟩

/-- Writes to two cells can be exchanged. -/
theorem setCharAt_comm (apart : other ≠ index) :
    (text.setCharAt index replacement >>= fun first => first.setCharAt other second) = .ok result ↔
      (text.setCharAt other second >>= fun first => first.setCharAt index replacement) =
        .ok result := by
  have exchange {index other : Int64} {replacement second : Text} (apart : other ≠ index)
      (both : (text.setCharAt index replacement >>= fun first => first.setCharAt other second) =
        .ok result) :
      (text.setCharAt other second >>= fun first => first.setCharAt index replacement) =
        .ok result := by
    obtain ⟨first, written, both⟩ := Chain.bind_eq_ok.mp both
    obtain ⟨d, isSecond, cell, rfl⟩ := setCharAt_eq_ok_iff.mp both
    rw [hasCell_of_setCharAt written] at cell
    obtain ⟨c, isFirst, own, rfl⟩ := setCharAt_eq_ok_iff.mp written
    have writtenSecond : text.setCharAt other second = .ok (text.set other.toInt.toNat d) :=
      setCharAt_eq_ok_iff.mpr ⟨d, isSecond, cell, rfl⟩
    rw [writtenSecond, Chain.bind_ok, setCharAt_eq_ok_iff, hasCell_of_setCharAt writtenSecond]
    exact ⟨c, isFirst, own, List.set_comm _ _ (toNat_ne_of_ne apart cell.1 own)⟩
  exact ⟨exchange apart, exchange apart.symm⟩

/-- The cells of a joined text are those of its first part and then those of the second. -/
theorem charAt_append :
    (text ++ more).charAt index = .ok c ↔
      if index.toInt < text.length then text.charAt index = .ok c
      else more.charAt (index - Int64.ofNat text.length) = .ok c := by
  have upper := index.toInt_lt
  split
  · next within =>
    rw [charAt_eq_ok_iff, charAt_eq_ok_iff]
    refine and_congr_right fun natural => ?_
    rw [List.getElem?_append_left (by omega)]
  · next past =>
    have length : (Int64.ofNat text.length).toInt = text.length :=
      Int64.toInt_ofNat_of_lt (by omega)
    have shifted : (index - Int64.ofNat text.length).toInt = index.toInt - text.length := by
      rw [Int64.toInt_sub, length]
      exact Int.bmod_eq_of_le (by omega) (by omega)
    rw [charAt_eq_ok_iff, charAt_eq_ok_iff, shifted, List.getElem?_append_right (by omega)]
    have places : (index.toInt - text.length).toNat = index.toInt.toNat - text.length := by omega
    rw [places]
    exact and_congr_left fun _ => by omega

end Cells

end Text

/-! ## Instructions -/

section Instructions

variable {machine : Machine} {target first second : Operand} {text more replacement : Text}
  {index : Int64}

theorem Machine.Supplies.yields_strLen (supplies : machine.Supplies target [first] [.string text])
    (short : text.length < 0x8000000000000000) :
    ∃ n : Int64, n.toInt = text.length ∧ machine.Yields .strLen target [first] (.ok (.int n)) := by
  refine ⟨Int64.ofNat text.length, Int64.toInt_ofNat_of_lt short,
    supplies.yields (by decide) rfl ?_⟩
  simp only [Opcode.action, Action.outcome, onOne, Value.asText, orError_ok, Chain.bind_ok,
    integerLength, if_pos short]
  rfl

theorem Machine.Supplies.yields_concat
    (supplies : machine.Supplies target [first, second] [.string text, .string more]) :
    machine.Yields .concat target [first, second] (.ok (.string (text ++ more))) :=
  supplies.yields (by decide) rfl rfl

theorem Machine.Supplies.yields_getChar
    (supplies : machine.Supplies target [first, second] [.string text, .int index]) :
    machine.Yields .getChar target [first, second]
      (((text.charAt index).mapError OperationError.fault).map fun c => .string [c]) := by
  refine supplies.yields (by decide) rfl ?_
  simp only [Opcode.action, Action.outcome, onTwo, characterOf, Value.asText, Value.asInt,
    orError_ok, Chain.bind_ok]
  exact assign_of_operation (text.charAt index) fun c => .string [c]

theorem Machine.Supplies.yields_setCharAt
    (supplies : machine.Supplies target [first, second] [.int index, .string replacement])
    (held : machine.frames.value target = .ok (.string text)) :
    machine.Yields .setChar target [first, second]
      (((text.setCharAt index replacement).mapError OperationError.fault).map Value.string) := by
  refine supplies.yields_setChar rfl held ?_
  simp only [Action.outcome, onThree, Value.asText, Value.asInt, orError_ok, Chain.bind_ok]
  exact assign_of_operation (text.setCharAt index replacement) Value.string

end Instructions

/-- A position has a character exactly if it is not negative and below the length, which is what
STRLEN counts, and a character can be written there exactly if there is one. Reading a cell that
has been written gives what was written, writing what was read changes nothing, the last one of
two writes counts, writes to different cells are independent, and the cells of what CONCAT joins
are those of the parts. GETCHAR reads a cell, and SETCHAR writes one. -/
theorem characters_are_cells (text replacement : Text) (index : Int64) :
    ((∃ c, text.charAt index = .ok c) ↔ 0 ≤ index.toInt ∧ index.toInt < text.length) ∧
    ((∃ changed, text.setCharAt index replacement = .ok changed) ↔
      replacement ≠ [] ∧ 0 ≤ index.toInt ∧ index.toInt < text.length) ∧
    (∀ changed, text.setCharAt index replacement = .ok changed →
      changed.length = text.length ∧
      (∃ c, replacement.head? = some c ∧ changed.charAt index = .ok c) ∧
      (∀ other, other ≠ index → changed.charAt other = text.charAt other) ∧
      ∀ second, changed.setCharAt index second = text.setCharAt index second) ∧
    (∀ c rest, text.charAt index = .ok c → text.setCharAt index (c :: rest) = .ok text) ∧
    (∀ other second result, other ≠ index →
      ((text.setCharAt index replacement >>= fun first => first.setCharAt other second) =
          .ok result ↔
        (text.setCharAt other second >>= fun first => first.setCharAt index replacement) =
          .ok result)) ∧
    (∀ more c, (text ++ more).charAt index = .ok c ↔
      if index.toInt < text.length then text.charAt index = .ok c
      else more.charAt (index - Int64.ofNat text.length) = .ok c) ∧
    ∀ (machine : Machine) (target first second : Operand),
      (machine.Supplies target [first] [.string text] → text.length < 0x8000000000000000 →
        ∃ n : Int64, n.toInt = text.length ∧
          machine.Yields .strLen target [first] (.ok (.int n))) ∧
      (∀ more, machine.Supplies target [first, second] [.string text, .string more] →
        machine.Yields .concat target [first, second] (.ok (.string (text ++ more)))) ∧
      (machine.Supplies target [first, second] [.string text, .int index] →
        machine.Yields .getChar target [first, second]
          (((text.charAt index).mapError OperationError.fault).map fun c => .string [c])) ∧
      (machine.Supplies target [first, second] [.int index, .string replacement] →
        machine.frames.value target = .ok (.string text) →
        machine.Yields .setChar target [first, second]
          (((text.setCharAt index replacement).mapError OperationError.fault).map
            Value.string)) := by
  refine ⟨Text.exists_charAt_iff, Text.exists_setCharAt_iff, fun changed written => ?_,
    fun c rest read => Text.setCharAt_charAt read rest,
    fun other second result apart => Text.setCharAt_comm apart,
    fun more c => Text.charAt_append, fun machine target first second => ?_⟩
  · exact ⟨Text.length_of_setCharAt written, Text.charAt_written written,
      fun other apart => Text.charAt_other written apart,
      fun second => Text.setCharAt_again written second⟩
  · exact ⟨fun supplies short => supplies.yields_strLen short,
      fun more supplies => supplies.yields_concat,
      fun supplies => supplies.yields_getChar,
      fun supplies held => supplies.yields_setCharAt held⟩

/-- A machine with a variable that holds a text of four characters and seven bytes. -/
def holdsFour : Machine :=
  ⟨⟨[(['x'], .string "žluť".toList)], none, []⟩, [], 0, 0, ⟨[]⟩, .unbounded⟩

/-- SETCHAR replaces the second character of the text by the first one of another text, and the
fourth one stays. -/
theorem second_of_four_is_written :
    holdsFour.Supplies ⟨.var, "GF@x".toList⟩
        [⟨.literal .int, ['1']⟩, ⟨.literal .string, "Lx".toList⟩]
        [.int 1, .string "Lx".toList] ∧
      holdsFour.frames.value ⟨.var, "GF@x".toList⟩ = .ok (.string "žluť".toList) ∧
      holdsFour.Yields .setChar ⟨.var, "GF@x".toList⟩
        [⟨.literal .int, ['1']⟩, ⟨.literal .string, "Lx".toList⟩]
        (.ok (.string "žLuť".toList)) ∧
      Text.charAt "žLuť".toList 1 = .ok 'L' ∧ Text.charAt "žLuť".toList 3 = .ok 'ť' := by
  have written : Text.setCharAt "žluť".toList 1 "Lx".toList = .ok "žLuť".toList := by
    decide +kernel
  have supplies : holdsFour.Supplies ⟨.var, "GF@x".toList⟩
      [⟨.literal .int, ['1']⟩, ⟨.literal .string, "Lx".toList⟩]
      [.int 1, .string "Lx".toList] :=
    ⟨⟨rfl, .string "žluť".toList, by decide +kernel⟩, by decide +kernel⟩
  have held : holdsFour.frames.value ⟨.var, "GF@x".toList⟩ = .ok (.string "žluť".toList) := by
    decide +kernel
  obtain ⟨_, _, laws, _, _, _, instructions⟩ :=
    characters_are_cells "žluť".toList "Lx".toList 1
  obtain ⟨_, ⟨c, first, read⟩, others, _⟩ := laws _ written
  have yields := (instructions holdsFour _ _ _).2.2.2 supplies held
  rw [written] at yields
  refine ⟨supplies, held, yields, ?_, ?_⟩
  · have capital : "Lx".toList.head? = some 'L' := by decide +kernel
    rw [read, Option.some.inj (first.symm.trans capital)]
  · rw [others 3 (by decide)]
    decide +kernel

end IPPcode24
