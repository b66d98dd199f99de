import IPPcode24.Proofs.CodePoints
import IPPcode24.Proofs.Equality
import IPPcode24.Proofs.Rewiring

/-!
# Texts taken to pieces and joined again

A loop takes the code points of a text one by one, makes a character of each, and joins the
characters. A run of the loop comes to its end with the text itself. Each instruction of the loop
is a lemma about where the run comes to and what the variables of the loop then hold, a round is
their chain, and the text is by induction on the rounds.
-/

namespace IPPcode24

/-- The variables of the loop. -/
inductive Cell where
  | source
  | length
  | index
  | piece
  | whole
deriving DecidableEq

/-- A loop that rebuilds a text: how its variables and labels are spelled, and which of the twin
opcodes it converts with. -/
structure Rebuilding where
  spelling : Cell → Text
  apart : Function.Injective spelling
  top : Text
  bottom : Text
  toInt : Opcode
  toChar : Opcode
  isToInt : toInt ∈ Opcode.charToInts
  isToChar : toChar ∈ Opcode.intToChars

namespace Rebuilding

variable (loop : Rebuilding)

def operand (cell : Cell) : Operand := ⟨.var, loop.spelling cell⟩

def code : List (Opcode × List Operand) :=
  [(.strLen, [loop.operand .length, loop.operand .source]),
    (.label, [⟨.label, loop.top⟩]),
    (.jumpIfEq, [⟨.label, loop.bottom⟩, loop.operand .index, loop.operand .length]),
    (loop.toInt, [loop.operand .piece, loop.operand .source, loop.operand .index]),
    (loop.toChar, [loop.operand .piece, loop.operand .piece]),
    (.concat, [loop.operand .whole, loop.operand .whole, loop.operand .piece]),
    (.add, [loop.operand .index, loop.operand .index, ⟨.literal .int, ['1']⟩]),
    (.jump, [⟨.label, loop.top⟩]),
    (.label, [⟨.label, loop.bottom⟩])]

/-- The program has the loop at a place. -/
structure At (program : Program) (place : Nat) : Prop where
  code : ∀ offset opcode operands, loop.code[offset]? = some (opcode, operands) →
    ∃ instruction, program.instructions[place + offset]? = some instruction ∧
      instruction.opcode? = some opcode ∧ instruction.operands = operands
  top : program.labels.resolve? loop.top = some (place + 1)
  bottom : program.labels.resolve? loop.bottom = some (place + 8)

/-- What the variables of the loop hold; one without a value is declared at least. -/
def Holds (frames : Frames) (contents : Cell → Value) : Prop :=
  ∀ cell, frames.content (loop.operand cell) = .ok (contents cell)

/-- The run comes to this offset in the loop, with these contents. -/
def Reaches (program : Program) (first : Machine) (place offset : Nat)
    (contents : Cell → Value) : Prop :=
  ∃ machine, Passes program first machine ∧ machine.pc = place + offset ∧
    loop.Holds machine.frames contents

/-- The contents once so many characters of the text have been joined. -/
def joined (text : Text) (count : Nat) (piece : Value) : Cell → Value
  | .source => .string text
  | .length => .int (Int64.ofNat text.length)
  | .index => .int (Int64.ofNat count)
  | .piece => piece
  | .whole => .string (text.take count)

end Rebuilding

/-! ## Single steps -/

section Steps

variable {program : Program} {first machine : Machine} {instruction : Instruction}
  {opcode : Opcode} {target : Operand} {symbols : List Operand} {value : Value}

theorem Passes.of_pass (passed : Passes program first machine)
    (plans : Plans program machine .pass) :
    ∃ next, Passes program first next ∧ next.pc = machine.pc + 1 ∧
      next.frames = machine.frames := by
  obtain ⟨reached, ended⟩ := step_of_plans plans
  exact ⟨_, .step passed ended, by rw [reached]; rfl, by rw [reached]; rfl⟩

theorem Passes.of_jump {place : Nat} (passed : Passes program first machine)
    (plans : Plans program machine (.jump place)) :
    ∃ next, Passes program first next ∧ next.pc = place ∧ next.frames = machine.frames := by
  obtain ⟨reached, ended⟩ := step_of_plans plans
  exact ⟨_, .step passed ended, by rw [reached]; rfl, by rw [reached]; rfl⟩

/-- An instruction that yields a value gives it to its target. -/
theorem Passes.of_yields (passed : Passes program first machine)
    (dispatched : Dispatches program machine instruction opcode)
    (operands : instruction.operands = target :: symbols) (isVar : target.operandClass = .var)
    (yields : machine.counted.Yields opcode target symbols (.ok value)) :
    ∃ next, Passes program first next ∧ next.pc = machine.pc + 1 ∧
      ∀ other, next.frames.content other =
        if other = target then .ok value else machine.frames.content other := by
  obtain ⟨ref, frames, named, stored, executed⟩ := yields
  have stepped := step_of_dispatches dispatched
  rw [operands, executed] at stepped
  have ended : (machine.step program).ending = none := by rw [stepped]; rfl
  refine ⟨_, .step passed ended, by rw [stepped]; rfl, ?_⟩
  rw [stepped]
  exact Frames.content_of_set isVar named stored

end Steps

/-! ## The instructions of the loop -/

section Plans

variable {labels : LabelTable} {frames : Frames}

theorem plan_label (name : Text) :
    Opcode.label.plan labels frames [⟨.label, name⟩] = .ok .pass := rfl

theorem plan_jump {name : Text} {place : Nat} (resolved : labels.resolve? name = some place) :
    Opcode.jump.plan labels frames [⟨.label, name⟩] = .ok (.jump place) := by
  rw [Opcode.plan_of_checked rfl]
  simp only [Opcode.action, Action.plan, operandAt_zero, Chain.bind_ok, LabelTable.target, resolved,
    Chain.pure_eq_ok]

/-- Integers are compared for the jump that leaves a loop. -/
theorem plan_jumpIfEq {name : Text} {place : Nat} {left right : Operand} {a b : Int64}
    (resolved : labels.resolve? name = some place)
    (first : frames.value left = .ok (.int a)) (second : frames.value right = .ok (.int b)) :
    Opcode.jumpIfEq.plan labels frames [⟨.label, name⟩, left, right] =
      .ok (if a = b then .jump place else .pass) := by
  have accepted : checkOperands .jumpIfEq [⟨.label, name⟩, left, right] = .ok () :=
    checkOperands_eq_ok.mpr ⟨Nat.le_refl _, fill_cons.mpr ⟨rfl, fill_cons.mpr
      ⟨isSymbol_of_value first, fill_cons.mpr ⟨isSymbol_of_value second, .nil []⟩⟩⟩⟩
  rw [Opcode.plan_of_checked accepted]
  simp only [Opcode.action, Action.plan, operandAt_zero, Chain.bind_ok, LabelTable.target, resolved,
    valuesOfPair_eq, SymbolOrder.arrange, first, second, Value.compares_int, Chain.pure_eq_ok]
  by_cases same : a = b
  · rw [decide_eq_true same, if_pos same]
    rfl
  · rw [decide_eq_false same, if_neg same]
    rfl

end Plans

namespace Rebuilding

section Instructions

variable {loop : Rebuilding} {program : Program} {first machine : Machine} {place offset : Nat}
  {contents : Cell → Value} {opcode : Opcode} {operands symbols : List Operand} {cell : Cell}
  {text more : Text} {a b n : Int64} {c : Char}

theorem operand_inj {other : Cell} : loop.operand cell = loop.operand other ↔ cell = other := by
  rw [operand, operand, Operand.mk.injEq]
  simp only [true_and, loop.apart.eq_iff]

theorem At.dispatches (holds : loop.At program place)
    (found : loop.code[offset]? = some (opcode, operands)) (pc : machine.pc = place + offset) :
    ∃ instruction, Dispatches program machine instruction opcode ∧
      instruction.operands = operands := by
  obtain ⟨instruction, fetched, known, same⟩ := holds.code offset opcode operands found
  rw [← pc] at fetched
  exact ⟨instruction, ⟨fetched, known⟩, same⟩

theorem At.plans {effect : Effect} (holds : loop.At program place)
    (found : loop.code[offset]? = some (opcode, operands)) (pc : machine.pc = place + offset)
    (planned : opcode.plan program.labels machine.frames operands = .ok effect) :
    Plans program machine effect := by
  obtain ⟨instruction, dispatched, rfl⟩ := holds.dispatches found pc
  exact ⟨instruction, opcode, dispatched, planned⟩

theorem Holds.value {frames : Frames} {value : Value} (held : loop.Holds frames contents)
    (is : contents cell = value) (present : value ≠ .uninitialized) :
    frames.value (loop.operand cell) = .ok value :=
  value_eq_ok.mpr ⟨is ▸ held cell, present⟩

theorem Holds.declares {frames : Frames} (held : loop.Holds frames contents) (cell : Cell) :
    frames.Declares (loop.operand cell) :=
  ⟨rfl, contents cell, held cell⟩

theorem Reaches.pass (reaches : loop.Reaches program first place offset contents)
    (holds : loop.At program place) (found : loop.code[offset]? = some (opcode, operands))
    (planned : ∀ frames, loop.Holds frames contents →
      opcode.plan program.labels frames operands = .ok .pass) :
    loop.Reaches program first place (offset + 1) contents := by
  obtain ⟨machine, passed, pc, held⟩ := reaches
  obtain ⟨next, passedToo, pcToo, frames⟩ :=
    passed.of_pass (holds.plans found pc (planned machine.frames held))
  exact ⟨next, passedToo, by rw [pcToo, pc, Nat.add_assoc], frames ▸ held⟩

theorem Reaches.jump {destination : Nat}
    (reaches : loop.Reaches program first place offset contents) (holds : loop.At program place)
    (found : loop.code[offset]? = some (opcode, operands))
    (planned : ∀ frames, loop.Holds frames contents →
      opcode.plan program.labels frames operands = .ok (.jump (place + destination))) :
    loop.Reaches program first place destination contents := by
  obtain ⟨machine, passed, pc, held⟩ := reaches
  obtain ⟨next, passedToo, pcToo, frames⟩ :=
    passed.of_jump (holds.plans found pc (planned machine.frames held))
  exact ⟨next, passedToo, pcToo, frames ▸ held⟩

/-- An instruction gives a value to one of the variables, and the others keep theirs. -/
theorem Reaches.assign {value : Value}
    (reaches : loop.Reaches program first place offset contents) (holds : loop.At program place)
    (found : loop.code[offset]? = some (opcode, loop.operand cell :: symbols))
    (yields : ∀ machine : Machine, loop.Holds machine.frames contents →
      machine.Yields opcode (loop.operand cell) symbols (.ok value)) :
    loop.Reaches program first place (offset + 1) (Function.update contents cell value) := by
  obtain ⟨machine, passed, pc, held⟩ := reaches
  obtain ⟨instruction, dispatched, operands⟩ := holds.dispatches found pc
  obtain ⟨next, passedToo, pcToo, after⟩ :=
    passed.of_yields dispatched operands rfl (yields machine.counted held)
  refine ⟨next, passedToo, by rw [pcToo, pc, Nat.add_assoc], fun other => ?_⟩
  rw [after, Function.update_apply]
  simp only [operand_inj]
  split
  · rfl
  · exact held other

theorem Reaches.measure (reaches : loop.Reaches program first place 0 contents)
    (holds : loop.At program place) (source : contents .source = .string text)
    (short : text.length < 0x8000000000000000) :
    loop.Reaches program first place 1
      (Function.update contents .length (.int (Int64.ofNat text.length))) := by
  refine reaches.assign holds rfl fun machine held => ?_
  have supplies : machine.Supplies (loop.operand .length) [loop.operand .source] [.string text] :=
    ⟨held.declares .length, valued_one (held.value source nofun)⟩
  obtain ⟨n, counts, yields⟩ := supplies.yields_strLen short
  have same : n = Int64.ofNat text.length :=
    Int64.toInt_inj.mp (counts.trans (Int64.toInt_ofNat_of_lt short).symm)
  rwa [same] at yields

theorem Reaches.take (reaches : loop.Reaches program first place 3 contents)
    (holds : loop.At program place) (source : contents .source = .string text)
    (index : contents .index = .int n) (taken : text.charAt n = .ok c) :
    loop.Reaches program first place 4 (Function.update contents .piece (.int (codeOf c))) := by
  refine reaches.assign holds rfl fun machine held => ?_
  have supplies : machine.Supplies (loop.operand .piece)
      [loop.operand .source, loop.operand .index] [.string text, .int n] :=
    ⟨held.declares .piece, valued_two (held.value source nofun) (held.value index nofun)⟩
  have named : characterOf (.string text) (.int n) = orError (.ok c) := by
    simp only [characterOf, Value.asText, Value.asInt, orError_ok, Chain.bind_ok, taken]
    rfl
  exact supplies.yields_charToInt loop.isToInt named

theorem Reaches.make (reaches : loop.Reaches program first place 4 contents)
    (holds : loop.At program place) (piece : contents .piece = .int (codeOf c)) :
    loop.Reaches program first place 5 (Function.update contents .piece (.string [c])) := by
  refine reaches.assign holds rfl fun machine held => ?_
  have supplies : machine.Supplies (loop.operand .piece) [loop.operand .piece] [.int (codeOf c)] :=
    ⟨held.declares .piece, valued_one (held.value piece nofun)⟩
  exact supplies.yields_scalarValue loop.isToChar

theorem Reaches.join (reaches : loop.Reaches program first place 5 contents)
    (holds : loop.At program place) (whole : contents .whole = .string text)
    (piece : contents .piece = .string more) :
    loop.Reaches program first place 6
      (Function.update contents .whole (.string (text ++ more))) := by
  refine reaches.assign holds rfl fun machine held => ?_
  have supplies : machine.Supplies (loop.operand .whole)
      [loop.operand .whole, loop.operand .piece] [.string text, .string more] :=
    ⟨held.declares .whole, valued_two (held.value whole nofun) (held.value piece nofun)⟩
  exact supplies.yields_concat

theorem Reaches.count (reaches : loop.Reaches program first place 6 contents)
    (holds : loop.At program place) (index : contents .index = .int n) :
    loop.Reaches program first place 7 (Function.update contents .index (.int (n + 1))) := by
  refine reaches.assign holds rfl fun machine held => ?_
  have one : machine.frames.value ⟨.literal .int, ['1']⟩ = .ok (.int 1) := rfl
  have supplies : machine.Supplies (loop.operand .index)
      [loop.operand .index, ⟨.literal .int, ['1']⟩] [.int n, .int 1] :=
    ⟨held.declares .index, valued_two (held.value index nofun) one⟩
  exact supplies.yields (by decide) rfl rfl

/-- The loop is left once the index is the length. -/
theorem Reaches.compare (reaches : loop.Reaches program first place 2 contents)
    (holds : loop.At program place) (index : contents .index = .int a)
    (length : contents .length = .int b) :
    loop.Reaches program first place (if a = b then 8 else 3) contents := by
  have planned (frames : Frames) (held : loop.Holds frames contents) :=
    plan_jumpIfEq holds.bottom (held.value index nofun) (held.value length nofun)
  by_cases same : a = b
  · rw [if_pos same] at planned ⊢
    exact reaches.jump holds rfl planned
  · rw [if_neg same] at planned ⊢
    exact reaches.pass holds rfl planned

end Instructions

/-! ## Rounds -/

section Rounds

variable {loop : Rebuilding} {program : Program} {first : Machine} {place count : Nat}
  {text : Text} {piece : Value}

theorem ofNat_ne_length (short : text.length < 0x8000000000000000) (more : count < text.length) :
    Int64.ofNat count ≠ Int64.ofNat text.length := by
  intro same
  have sameInt := congrArg Int64.toInt same
  rw [Int64.toInt_ofNat_of_lt short, Int64.toInt_ofNat_of_lt (Nat.lt_trans more short)] at sameInt
  omega

theorem charAt_ofNat (short : text.length < 0x8000000000000000) (more : count < text.length) :
    text.charAt (Int64.ofNat count) = .ok text[count] := by
  have index := Int64.toInt_ofNat_of_lt (Nat.lt_trans more short)
  refine Text.charAt_eq_ok_iff.mpr ⟨?_, ?_⟩
  · omega
  · rw [index, Int.toNat_natCast, List.getElem?_eq_getElem more]

/-- What the instructions of a round leave is what is joined with one character more. -/
theorem joined_succ (more : count < text.length) {code : Value} :
    Function.update (Function.update (Function.update
        (Function.update (joined text count piece) .piece code)
        .piece (.string [text[count]]))
        .whole (.string (text.take count ++ [text[count]])))
        .index (.int (Int64.ofNat count + 1)) =
      joined text (count + 1) (.string [text[count]]) := by
  funext cell
  cases cell with
  | source | length | piece => rfl
  | index => exact congrArg Value.int (Int64.ofNat_add count 1).symm
  | whole =>
    change Value.string _ = Value.string (text.take (count + 1))
    rw [List.take_append_getElem more]

/-- A round joins the next character. -/
theorem Reaches.round (reaches : loop.Reaches program first place 1 (joined text count piece))
    (holds : loop.At program place) (short : text.length < 0x8000000000000000)
    (more : count < text.length) :
    loop.Reaches program first place 1 (joined text (count + 1) (.string [text[count]])) := by
  -- one step for each instruction, from the label at the top around to it again
  have tested := (reaches.pass holds rfl fun _ _ => plan_label _).compare holds rfl rfl
  rw [if_neg (ofNat_ne_length short more)] at tested
  have taken := tested.take holds rfl rfl (charAt_ofNat short more)
  have made := taken.make holds rfl
  have grown := made.join holds rfl rfl
  have counted := grown.count holds rfl
  have back := counted.jump holds rfl fun _ _ => plan_jump holds.top
  rwa [joined_succ more] at back

theorem Reaches.rounds (reaches : loop.Reaches program first place 1 (joined text 0 piece))
    (holds : loop.At program place) (short : text.length < 0x8000000000000000)
    (within : count ≤ text.length) :
    ∃ piece, loop.Reaches program first place 1 (joined text count piece) := by
  induction count with
  | zero => exact ⟨piece, reaches⟩
  | succ count ih =>
    obtain ⟨_, earlier⟩ := ih (Nat.le_of_succ_le within)
    exact ⟨_, earlier.round holds short within⟩

/-- The loop comes to its end with the whole text joined. -/
theorem At.rebuilds {contents : Cell → Value} (holds : loop.At program first.pc)
    (held : loop.Holds first.frames contents) (source : contents .source = .string text)
    (index : contents .index = .int 0) (whole : contents .whole = .string [])
    (short : text.length < 0x8000000000000000) :
    ∃ piece, loop.Reaches program first first.pc 9 (joined text text.length piece) := by
  have start : loop.Reaches program first first.pc 0 contents := ⟨first, .start, rfl, held⟩
  have measured := start.measure holds source short
  have initial : Function.update contents .length (.int (Int64.ofNat text.length)) =
      joined text 0 (contents .piece) := by
    funext cell
    cases cell <;> simp [joined, source, index, whole]
  rw [initial] at measured
  obtain ⟨piece, top⟩ := measured.rounds holds short (Nat.le_refl _)
  have left := (top.pass holds rfl fun _ _ => plan_label _).compare holds rfl rfl
  rw [if_pos rfl] at left
  exact ⟨piece, left.pass holds rfl fun _ _ => plan_label _⟩

/-- Some number of steps leads to where the run comes to. -/
theorem Reaches.exists_fuel {offset : Nat} {contents : Cell → Value}
    (reaches : loop.Reaches program first place offset contents) :
    ∃ fuel, let run := (Run.start first).continued program fuel
      run.ending = none ∧ run.machine.pc = place + offset ∧
        loop.Holds run.machine.frames contents := by
  obtain ⟨machine, passed, pc, held⟩ := reaches
  obtain ⟨fuel, going, same⟩ := exists_continued_of_passes passed
  refine ⟨fuel, going, ?_⟩
  rw [same]
  exact ⟨pc, held⟩

end Rounds

end Rebuilding

/-- The conversions undo each other. STRI2INT succeeds where GETCHAR does, and INT2CHAR makes of
its result what GETCHAR gives; where one of the two fails, so does the other. INT2CHAR succeeds
exactly on the Unicode scalar values and refuses every other integer as no code point, and what
it makes is a text of one character, of which STRI2INT gives the integer again. So a loop that
joins what INT2CHAR makes of the code points of a text, from its first position to the one below
its length, comes to its end with the text, if STRLEN can count the characters. The twins of the
stack family can stand in for STRI2INT and INT2CHAR throughout. -/
theorem character_conversions_invert :
    (∀ (machine : Machine) (target first second : Operand) (text index : Value),
      machine.Supplies target [first, second] [text, index] →
      (∃ c, machine.Yields .getChar target [first, second] (.ok (.string [c])) ∧
        ∀ opcode ∈ Opcode.charToInts, ∃ code,
          machine.Yields opcode target [first, second] (.ok (.int code)) ∧
          ∀ (next : Machine) (other symbol : Operand), next.Supplies other [symbol] [.int code] →
            ∀ back ∈ Opcode.intToChars, next.Yields back other [symbol] (.ok (.string [c]))) ∨
      ∃ fault, machine.Yields .getChar target [first, second] (.error fault) ∧
        ∀ opcode ∈ Opcode.charToInts,
          machine.Yields opcode target [first, second] (.error fault)) ∧
    (∀ (machine : Machine) (target symbol : Operand) (code : Int64),
      machine.Supplies target [symbol] [.int code] → ∀ opcode ∈ Opcode.intToChars,
      ((∃ value, machine.Yields opcode target [symbol] (.ok value)) ↔
        IsScalarValue code.toInt) ∧
      (¬ IsScalarValue code.toInt →
        machine.Yields opcode target [symbol] (.error (.character (.notCodePoint code)))) ∧
      ∀ value, machine.Yields opcode target [symbol] (.ok value) →
        ∀ (next : Machine) (other first second : Operand),
          (next.Supplies other [first, second] [value, .int 0] →
            ∀ back ∈ Opcode.charToInts, next.Yields back other [first, second] (.ok (.int code))) ∧
          (next.Supplies other [first] [value] →
            next.Yields .strLen other [first] (.ok (.int 1)))) ∧
    ∀ (loop : Rebuilding) (program : Program) (first : Machine) (contents : Cell → Value)
      (text : Text), loop.At program first.pc → loop.Holds first.frames contents →
      contents .source = .string text → contents .index = .int 0 → contents .whole = .string [] →
      text.length < 0x8000000000000000 →
      ∃ fuel, let run := (Run.start first).continued program fuel
        run.ending = none ∧ run.machine.pc = first.pc + 9 ∧
          run.machine.frames.value (loop.operand .whole) = .ok (.string text) ∧
          run.machine.frames.value (loop.operand .source) = .ok (.string text) := by
  refine ⟨?_, ?_, ?_⟩
  · intro machine target first second text index supplies
    obtain ⟨result, named⟩ := exists_characterOf text index
    have got := supplies.yields_character named
    cases result with
    | error fault =>
      exact .inr ⟨fault, got, fun opcode twin => supplies.yields_charToInt twin named⟩
    | ok c =>
      refine .inl ⟨c, got, fun opcode twin => ⟨codeOf c, supplies.yields_charToInt twin named, ?_⟩⟩
      exact fun next other symbol supplied back twinToo => supplied.yields_scalarValue twinToo
  · intro machine target symbol code supplies opcode twin
    refine ⟨supplies.exists_yields_intToChar_iff twin, supplies.yields_notCodePoint twin, ?_⟩
    intro value made next other first second
    obtain ⟨c, rfl, rfl⟩ := supplies.exists_character twin made
    exact ⟨fun supplied back twinToo => supplied.yields_codeOf twinToo,
      fun supplied => supplied.yields_length_one⟩
  · intro loop program first contents text holds held source index whole short
    obtain ⟨piece, reaches⟩ := holds.rebuilds held source index whole short
    obtain ⟨fuel, going, pc, after⟩ := reaches.exists_fuel
    refine ⟨fuel, going, pc, after.value ?_ nofun, after.value rfl nofun⟩
    exact congrArg Value.string (List.take_length (l := text))

def globalCell : Cell → Text
  | .source => "GF@s".toList
  | .length => "GF@n".toList
  | .index => "GF@i".toList
  | .piece => "GF@c".toList
  | .whole => "GF@w".toList

/-- A loop that converts to integers with the twin of the stack family. -/
def globalLoop : Rebuilding where
  spelling := globalCell
  apart := by
    intro a b
    cases a <;> cases b <;> decide
  top := "top".toList
  bottom := "bottom".toList
  toInt := .stri2Ints
  toChar := .int2Char
  isToInt := by decide
  isToChar := by decide

/-- The loop behind an instruction that a run from the machine below does not come to. -/
def loopRecords : List Instruction :=
  [⟨1, "BREAK".toList, []⟩,
    ⟨2, "STRLEN".toList, [⟨.var, "GF@n".toList⟩, ⟨.var, "GF@s".toList⟩]⟩,
    ⟨3, "LABEL".toList, [⟨.label, "top".toList⟩]⟩,
    ⟨4, "JUMPIFEQ".toList,
      [⟨.label, "bottom".toList⟩, ⟨.var, "GF@i".toList⟩, ⟨.var, "GF@n".toList⟩]⟩,
    ⟨5, "STRI2INTS".toList,
      [⟨.var, "GF@c".toList⟩, ⟨.var, "GF@s".toList⟩, ⟨.var, "GF@i".toList⟩]⟩,
    ⟨6, "INT2CHAR".toList, [⟨.var, "GF@c".toList⟩, ⟨.var, "GF@c".toList⟩]⟩,
    ⟨7, "CONCAT".toList,
      [⟨.var, "GF@w".toList⟩, ⟨.var, "GF@w".toList⟩, ⟨.var, "GF@c".toList⟩]⟩,
    ⟨8, "ADD".toList, [⟨.var, "GF@i".toList⟩, ⟨.var, "GF@i".toList⟩, ⟨.literal .int, ['1']⟩]⟩,
    ⟨9, "JUMP".toList, [⟨.label, "top".toList⟩]⟩,
    ⟨10, "LABEL".toList, [⟨.label, "bottom".toList⟩]⟩]

/-- A machine at the loop, with a text of four characters and seven bytes. -/
def atLoop : Machine :=
  ⟨⟨[("s".toList, .string "žluť".toList), ("n".toList, .uninitialized), ("i".toList, .int 0),
      ("c".toList, .nil), ("w".toList, .string [])], none, []⟩, [], 1, 0, ⟨[]⟩, .unbounded⟩

/-- The text is rebuilt. The first surrogate is refused and the last code point is not, and the
last character of the text has a code point. -/
theorem four_characters_are_rebuilt :
    (∃ program fuel, Program.build loopRecords = .ok program ∧
      ((Run.start atLoop).continued program fuel).ending = none ∧
      ((Run.start atLoop).continued program fuel).machine.frames.value ⟨.var, "GF@w".toList⟩ =
        .ok (.string "žluť".toList)) ∧
    atLoop.Yields .int2Chars ⟨.var, "GF@c".toList⟩ [⟨.literal .int, "55296".toList⟩]
      (.error (.character (.notCodePoint 55296))) ∧
    (∃ value, atLoop.Yields .int2Char ⟨.var, "GF@c".toList⟩ [⟨.literal .int, "1114111".toList⟩]
      (.ok value)) ∧
    ∃ c code, atLoop.Yields .getChar ⟨.var, "GF@c".toList⟩
        [⟨.var, "GF@s".toList⟩, ⟨.literal .int, ['3']⟩] (.ok (.string [c])) ∧
      atLoop.Yields .stri2Int ⟨.var, "GF@c".toList⟩
        [⟨.var, "GF@s".toList⟩, ⟨.literal .int, ['3']⟩] (.ok (.int code)) := by
  obtain ⟨characters, codes, rebuilds⟩ := character_conversions_invert
  have declares : atLoop.frames.Declares ⟨.var, "GF@c".toList⟩ := ⟨rfl, .nil, by decide +kernel⟩
  refine ⟨?_, ?_, ?_, ?_⟩
  · let program : Program := ⟨loopRecords, [("top".toList, 2), ("bottom".toList, 9)]⟩
    have built : Program.build loopRecords = .ok program := by decide +kernel
    have holds : globalLoop.At program atLoop.pc := by
      refine ⟨?_, by decide +kernel, by decide +kernel⟩
      intro offset opcode operands found
      match offset with
      | 0 | 1 | 2 | 3 | 4 | 5 | 6 | 7 | 8 =>
        cases found
        exact ⟨_, rfl, rfl, rfl⟩
      | offset + 9 => cases found
    have held : globalLoop.Holds atLoop.frames fun
        | .source => .string "žluť".toList
        | .length => .uninitialized
        | .index => .int 0
        | .piece => .nil
        | .whole => .string [] := by
      intro cell
      cases cell <;> decide +kernel
    obtain ⟨fuel, going, _, whole, _⟩ :=
      rebuilds globalLoop program atLoop _ _ holds held rfl rfl rfl (by decide)
    exact ⟨program, fuel, built, going, whole⟩
  · have supplies : atLoop.Supplies ⟨.var, "GF@c".toList⟩ [⟨.literal .int, "55296".toList⟩]
        [.int 55296] := ⟨declares, by decide +kernel⟩
    exact (codes _ _ _ _ supplies .int2Chars (by decide)).2.1 (by decide)
  · have supplies : atLoop.Supplies ⟨.var, "GF@c".toList⟩ [⟨.literal .int, "1114111".toList⟩]
        [.int 1114111] := ⟨declares, by decide +kernel⟩
    exact (codes _ _ _ _ supplies .int2Char (by decide)).1.mpr (by decide)
  · have supplies : atLoop.Supplies ⟨.var, "GF@c".toList⟩
        [⟨.var, "GF@s".toList⟩, ⟨.literal .int, ['3']⟩] [.string "žluť".toList, .int 3] :=
      ⟨declares, by decide +kernel⟩
    rcases characters _ _ _ _ _ _ supplies with ⟨c, got, converts⟩ | ⟨fault, refused, _⟩
    · obtain ⟨code, converted, _⟩ := converts .stri2Int (by decide)
      exact ⟨c, code, got, converted⟩
    · have goes : (atLoop.execute [] .getChar [⟨.var, "GF@c".toList⟩, ⟨.var, "GF@s".toList⟩,
          ⟨.literal .int, ['3']⟩]).flow = .ok .next := by decide +kernel
      rw [refused []] at goes
      cases goes

end IPPcode24
