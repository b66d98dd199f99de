import IPPcode24.Proofs.Crashes
import IPPcode24.Proofs.DecimalText
import IPPcode24.Proofs.InputLines
import IPPcode24.Proofs.Sinks
import IPPcode24.Proofs.Variables
import Mathlib.Data.List.Induction

/-!
# Values written on lines and read back

A value that is written with a line feed after it makes up a line, and the line is read as
the value when the text of the value survives the way: an integer and a truth value always
do, and a text does when it is not empty, holds no line feed, does not end in a carriage
return and has no escapes to decode. So a program that writes values line by line hands them
on to a program that reads them.
-/

namespace IPPcode24

/-- The values that a line can carry. -/
def Value.Legible : Value → Prop
  | .int _ | .bool _ => True
  | .string text => text ≠ [] ∧ '\n' ∉ text ∧ text.getLast? ≠ some '\r' ∧
      Text.decodeEscapes text = text
  | .float _ | .nil | .uninitialized => False

instance (value : Value) : Decidable value.Legible :=
  match value with
  | .int _ | .bool _ => .isTrue trivial
  | .string _ => inferInstanceAs (Decidable (_ ∧ _ ∧ _ ∧ _))
  | .float _ | .nil | .uninitialized => .isFalse id

/-- What is written of the values, each one with a line feed after it. -/
def linesOf (values : List Value) : Text := values.flatMap fun value => value.written ++ ['\n']

def lineFeed : Operand := ⟨.literal .string, "\\010".toList⟩

def Program.WritesAt (program : Program) (place : Nat) (operand : Operand) : Prop :=
  ∃ instruction, program.instructions[place]? = some instruction ∧
    instruction.opcode? = some .write ∧ instruction.operands = [operand]

/-- The two instructions from a place on write a symbol with the value and a line feed. -/
def Program.WritesLine (program : Program) (frames : Frames) (place : Nat) (value : Value) : Prop :=
  (∃ operand, program.WritesAt place operand ∧ frames.value operand = .ok value) ∧
    program.WritesAt (place + 1) lineFeed

/-- The instruction at a place reads a value of the type into the variable, which is
declared. -/
def Program.ReadsAt (program : Program) (frames : Frames) (place : Nat) (kind : Kind)
    (ref : Variable) : Prop :=
  (∃ instruction target type, program.instructions[place]? = some instruction ∧
    instruction.opcode? = some .read ∧ instruction.operands = [target, type] ∧
    target.operandClass = .var ∧ Variable.ofSource? target.text = some ref ∧
    type.operandClass = .type ∧ Kind.ofName? type.text = some kind) ∧
  ∃ content, frames.get ref = .ok content

/-- From the place of a machine on, the program writes the lines of the values. -/
def Program.WritesLines (program : Program) (first : Machine) (values : List Value) : Prop :=
  ∀ index value, values[index]? = some value →
    program.WritesLine first.frames (first.pc + 2 * index) value

/-- From the place of a machine on, the program reads as many lines as there are values, each
with the type of its value and into the variable that goes with it. -/
def Program.ReadsLines (program : Program) (start : Machine) (values : List Value)
    (refs : Nat → Variable) : Prop :=
  ∀ index value, values[index]? = some value →
    program.ReadsAt start.frames (start.pc + index) value.kind (refs index)

/-! ## One line -/

theorem Text.isBlank_of_mem_ofInt {n : Int} {c : Char} (member : c ∈ Text.ofInt n) :
    Text.isBlank c = false := by
  have ofDigit {n : Nat} (member : c ∈ Text.ofNat n) : Text.isBlank c = false := by
    have range := isDigit_iff.mp (Text.isDigit_of_mem_ofNat member)
    exact (isPlain_of_range (by omega)).1
  rw [Text.ofInt] at member
  split at member
  · rcases List.mem_cons.mp member with rfl | member
    · decide
    · exact ofDigit member
  · exact ofDigit member

namespace Value.Legible

variable {value : Value}

theorem written_ne_nil (legible : value.Legible) : value.written ≠ [] := by
  cases value with
  | int n =>
    change Text.ofInt n.toInt ≠ []
    rw [Text.ofInt]
    split
    · exact List.cons_ne_nil _ _
    · exact Text.ofNat_ne_nil _
  | bool b => cases b <;> exact List.cons_ne_nil _ _
  | string text =>
    obtain ⟨occupied, _, _, plain⟩ := legible
    change Text.decodeEscapes text ≠ []
    rwa [plain]
  | float _ | nil | uninitialized => exact legible.elim

theorem newline_not_mem (legible : value.Legible) : '\n' ∉ value.written := by
  cases value with
  | int n => exact fun member => absurd (Text.isBlank_of_mem_ofInt member) (by decide)
  | bool b => cases b <;> decide
  | string text =>
    obtain ⟨_, single, _, plain⟩ := legible
    change '\n' ∉ Text.decodeEscapes text
    rwa [plain]
  | float _ | nil | uninitialized => exact legible.elim

theorem valueOfLine_written (legible : value.Legible) :
    Input.valueOfLine value.kind (Input.dropLineEnd (value.written ++ ['\n'])) =
      .ok (some value) := by
  cases value with
  | int n =>
    have trimmed : Text.trim (Text.ofInt n.toInt) = Text.ofInt n.toInt := by
      have solid : Text.trim ([] ++ Text.ofInt n.toInt ++ []) = Text.ofInt n.toInt :=
        Text.trim_of_blanks nofun nofun fun _ => Text.isBlank_of_mem_ofInt
      rwa [List.nil_append, List.append_nil] at solid
    change (Literal.parseInt (Text.trim (Input.dropLineEnd (Text.ofInt n.toInt ++ ['\n'])))).map
      _ = _
    rw [Input.trim_dropLineEnd, trimmed, Literal.parseInt_ofInt]
    rfl
  | bool b => cases b <;> decide
  | string text =>
    obtain ⟨_, _, noReturn, plain⟩ := legible
    change Except.ok (some (Value.string (Input.dropLineEnd (Text.decodeEscapes text ++ ['\n'])))) =
      _
    rw [plain, Input.dropLineEnd_append, if_neg noReturn]
  | float _ | nil | uninitialized => exact legible.elim

theorem read_written (legible : value.Legible) (rest : List UInt8) :
    Input.read value.kind ⟨Text.utf8 value.written ++ 10 :: rest⟩ =
      (.ok (some value), ⟨rest⟩) := by
  have asks : value.kind ≠ .nil := by
    cases value with
    | int _ | bool _ | string _ => exact nofun
    | float _ | nil | uninitialized => exact legible.elim
  rw [Input.read_of_nextLine asks (Input.nextLine_of_terminated legible.newline_not_mem rest),
    legible.valueOfLine_written]

end Value.Legible

theorem utf8_linesOf_cons (value : Value) (values : List Value) :
    Text.utf8 (linesOf (value :: values)) =
      Text.utf8 value.written ++ 10 :: Text.utf8 (linesOf values) := by
  rw [linesOf, List.flatMap_cons, Text.utf8_append, Text.utf8_append, List.append_assoc]
  rfl

/-! ## One instruction -/

section Steps

variable {program : Program} {machine : Machine}

def Machine.wrote (machine : Machine) (text : Text) : Machine :=
  { machine with
    pc := machine.pc + 1
    steps := machine.steps + 1
    output := machine.output.taking text }

theorem Machine.wrote_text (machine : Machine) (text : Text) :
    (machine.wrote text).output.text = machine.output.text ++ text :=
  machine.output.text_taking text

theorem step_of_writesAt {operand : Operand} {value : Value}
    (writes : program.WritesAt machine.pc operand)
    (worth : machine.frames.value operand = .ok value)
    (occupied : value.written ≠ []) (takes : machine.output.sink.TakesAll) :
    (machine.step program).ending = none ∧
      (machine.step program).machine = machine.wrote value.written := by
  obtain ⟨instruction, fetched, known, operands⟩ := writes
  have dispatched : Dispatches program machine instruction .write := ⟨fetched, known⟩
  have accepted : checkOperands .write [operand] = .ok () :=
    checkOperands_eq_ok.mpr ⟨Nat.le_refl _, fill_cons.mpr ⟨isSymbol_of_value worth, .nil []⟩⟩
  have planned : Opcode.write.plan program.labels machine.frames instruction.operands =
      .ok (.write value.written) := by
    rw [operands, Opcode.plan_of_checked accepted]
    simp only [Opcode.action, Action.plan, valueAt, operandAt, List.getElem?_cons_zero,
      Chain.bind_ok, worth, if_neg occupied, Chain.pure_eq_ok]
  have taken := Output.write_of_takesAll takes value.written
  rw [step_of_dispatches dispatched, Machine.execute]
  simp only [Machine.counted, planned, Machine.perform, taken]
  exact ⟨rfl, rfl⟩

theorem step_of_readsAt {kind : Kind} {ref : Variable} {value? : Option Value} {rest : Input}
    (reads : program.ReadsAt machine.frames machine.pc kind ref)
    (given : machine.input.read kind = (.ok value?, rest)) :
    ∃ frames, machine.frames.set ref (value?.getD .nil) = .ok frames ∧
      (machine.step program).ending = none ∧
      (machine.step program).machine =
        { machine with
          frames, input := rest, pc := machine.pc + 1, steps := machine.steps + 1 } := by
  obtain ⟨⟨instruction, target, type, fetched, known, operands, isVar, named, isType, kinded⟩,
    content, declared⟩ := reads
  obtain ⟨frames, assigned⟩ := Frames.exists_set_of_get declared (value?.getD .nil)
  refine ⟨frames, assigned, ?_⟩
  have dispatched : Dispatches program machine instruction .read := ⟨fetched, known⟩
  have accepted : checkOperands .read [target, type] = .ok () := by
    refine checkOperands_eq_ok.mpr ⟨Nat.le_refl _, fill_cons.mpr ⟨?_, fill_cons.mpr ⟨?_, .nil []⟩⟩⟩
    · rw [isVar]
      rfl
    · rw [isType]
      rfl
  have planned : Opcode.read.plan program.labels machine.frames instruction.operands =
      .ok (.read target kind) := by
    rw [operands, Opcode.plan_of_checked accepted]
    simp only [Opcode.action, Action.plan, operandAt, List.getElem?_cons_zero,
      List.getElem?_cons_succ, asKind_eq_ok.mpr kinded, orError_ok, Chain.bind_ok, Chain.pure_eq_ok]
  have reference : target.reference = .ok ref := by rw [Operand.reference, named]
  rw [step_of_dispatches dispatched, Machine.execute]
  simp only [Machine.counted, planned, Machine.perform, Machine.readInto, given, reference,
    Machine.withFrames, assigned]
  exact ⟨rfl, rfl⟩

end Steps

/-! ## Writing lines -/

/-- How far a run has come that writes values line by line. -/
structure Wrote (first : Machine) (values : List Value) (run : Run) : Prop where
  going : run.ending = none
  place : run.machine.pc = first.pc + 2 * values.length
  frames : run.machine.frames = first.frames
  takes : run.machine.output.sink.TakesAll
  text : run.machine.output.text = first.output.text ++ linesOf values

theorem Wrote.step {program : Program} {first : Machine} {values : List Value} {value : Value}
    {run : Run} (wrote : Wrote first values run) (legible : value.Legible)
    (writes : program.WritesLine first.frames (first.pc + 2 * values.length) value) :
    Wrote first (values ++ [value]) ((run.advance program).advance program) := by
  obtain ⟨⟨operand, writesValue, worth⟩, writesFeed⟩ := writes
  rw [← wrote.place] at writesValue writesFeed
  rw [← wrote.frames] at worth
  obtain ⟨goes, wroteValue⟩ :=
    step_of_writesAt writesValue worth legible.written_ne_nil wrote.takes
  have feeds : (run.machine.wrote value.written).frames.value lineFeed =
      .ok (.string "\\010".toList) := rfl
  have writesNext : program.WritesAt (run.machine.wrote value.written).pc lineFeed := writesFeed
  obtain ⟨goesToo, wroteFeed⟩ := step_of_writesAt writesNext feeds (by decide) wrote.takes
  have advanced : (run.advance program).ending = none ∧
      (run.advance program).machine = run.machine.wrote value.written := by
    rw [Run.advance_of_going wrote.going]
    exact ⟨goes, wroteValue⟩
  rw [Run.advance_of_going advanced.1, advanced.2, goesToo, wroteFeed]
  refine ⟨rfl, ?_, wrote.frames, wrote.takes, ?_⟩
  · simp only [Machine.wrote, wrote.place, List.length_append, List.length_singleton]
    omega
  · have feed : (Value.string "\\010".toList).written = ['\n'] := by decide
    rw [Machine.wrote_text, Machine.wrote_text, wrote.text, feed, linesOf, linesOf,
      List.flatMap_append]
    simp

theorem getElem?_of_front {α : Type} {front : List α} {index : Nat} {a : α}
    (found : front[index]? = some a) (back : List α) : (front ++ back)[index]? = some a := by
  rw [List.getElem?_append_left (List.getElem?_eq_some_iff.mp found).1, found]

theorem wrote_continued {program : Program} {first : Machine} {values : List Value}
    (legible : ∀ value ∈ values, value.Legible) (writes : program.WritesLines first values)
    (takes : first.output.sink.TakesAll) :
    Wrote first values ((Run.start first).continued program (2 * values.length)) := by
  -- a run grows at its end, and so the values are taken from behind
  induction values using List.reverseRecOn with
  | nil => exact ⟨rfl, rfl, rfl, takes, (List.append_nil _).symm⟩
  | append_singleton values value ih =>
    have earlier := ih (fun other member => legible other (List.mem_append_left _ member))
      fun index other found => writes index other (getElem?_of_front found _)
    have last := writes values.length value List.getElem?_concat_length
    have steps : 2 * (values ++ [value]).length = 2 * values.length + 1 + 1 := by
      rw [List.length_append]
      rfl
    rw [steps, continued_succ, continued_succ]
    exact earlier.step (legible value (List.mem_append_right _ List.mem_cons_self)) last

/-- A run that goes on past the last instruction is completed by one more step and a flush. -/
theorem execution?_of_past {program : Program} {first : Machine} {fuel : Nat}
    (going : ((Run.start first).continued program fuel).ending = none)
    (past : program.size ≤ ((Run.start first).continued program fuel).machine.pc) :
    ∃ execution, first.execution? (fuel + 1) program = some execution ∧
      execution.machine =
        ((Run.start first).continued program fuel).machine.closed (.halted .completed) := by
  have nothing := List.getElem?_eq_none_iff.mpr past
  have stepped : ((Run.start first).continued program fuel).machine.step program =
      ⟨((Run.start first).continued program fuel).machine, [], some (.halted .completed)⟩ := by
    rw [Machine.step, nothing]
  rw [Machine.execution?, continued_succ, Run.advance_of_going going, stepped]
  exact ⟨_, rfl, rfl⟩

/-! ## Reading lines -/

/-- How far a run has come that reads the lines of values, with the lines of the rest still
ahead. -/
structure HasRead (start : Machine) (values rest : List Value) (run : Run) : Prop where
  going : run.ending = none
  place : run.machine.pc = start.pc + values.length
  input : run.machine.input = ⟨Text.utf8 (linesOf rest)⟩
  declared : ∀ ref content, start.frames.get ref = .ok content →
    ∃ content, run.machine.frames.get ref = .ok content

theorem Program.ReadsAt.later {program : Program} {start : Machine} {values rest : List Value}
    {run : Run} {kind : Kind} {ref : Variable} (read : HasRead start values rest run)
    (reads : program.ReadsAt start.frames (start.pc + values.length) kind ref) :
    program.ReadsAt run.machine.frames run.machine.pc kind ref := by
  obtain ⟨asks, content, declared⟩ := reads
  rw [read.place]
  exact ⟨asks, read.declared ref content declared⟩

theorem HasRead.step {program : Program} {start : Machine} {values rest : List Value}
    {value : Value} {ref : Variable} {run : Run} (read : HasRead start values (value :: rest) run)
    (legible : value.Legible)
    (reads : program.ReadsAt start.frames (start.pc + values.length) value.kind ref) :
    HasRead start (values ++ [value]) rest (run.advance program) ∧
      (run.advance program).machine.frames.get ref = .ok value := by
  have given : run.machine.input.read value.kind =
      (.ok (some value), ⟨Text.utf8 (linesOf rest)⟩) := by
    rw [read.input, utf8_linesOf_cons, legible.read_written]
  obtain ⟨frames, assigned, goes, after⟩ := step_of_readsAt (reads.later read) given
  rw [Run.advance_of_going read.going, goes, after]
  refine ⟨⟨rfl, ?_, rfl, ?_⟩, ?_⟩
  · simp only [read.place, List.length_append, List.length_singleton]
    omega
  · intro other content declared
    obtain ⟨content, declared⟩ := read.declared other content declared
    simp only [Frames.get_of_set assigned, declared]
    split
    · exact ⟨_, rfl⟩
    · exact ⟨_, rfl⟩
  · simp only [Frames.get_of_set assigned, if_true]
    rfl

theorem hasRead_continued {program : Program} {start : Machine} {values rest : List Value}
    {refs : Nat → Variable} (legible : ∀ value ∈ values, value.Legible)
    (reads : program.ReadsLines start values refs)
    (input : start.input = ⟨Text.utf8 (linesOf (values ++ rest))⟩) :
    HasRead start values rest ((Run.start start).continued program values.length) := by
  -- as for the writing run, where what the last read leaves goes over to the rest
  induction values using List.reverseRecOn generalizing rest with
  | nil => exact ⟨rfl, rfl, input, fun _ content declared => ⟨content, declared⟩⟩
  | append_singleton values value ih =>
    rw [List.append_assoc, List.singleton_append] at input
    have earlier := ih (fun other member => legible other (List.mem_append_left _ member))
      (fun index other found => reads index other (getElem?_of_front found _)) input
    have last := reads values.length value List.getElem?_concat_length
    rw [List.length_append, List.length_singleton, continued_succ]
    exact (earlier.step (legible value (List.mem_append_right _ List.mem_cons_self)) last).1

theorem get_of_readsLines {program : Program} {start : Machine} {values : List Value}
    {refs : Nat → Variable} (legible : ∀ value ∈ values, value.Legible)
    (reads : program.ReadsLines start values refs)
    (input : start.input = ⟨Text.utf8 (linesOf values)⟩) {index : Nat} {value : Value}
    (found : values[index]? = some value) :
    ((Run.start start).continued program (index + 1)).ending = none ∧
      ((Run.start start).continued program (index + 1)).machine.frames.get (refs index) =
        .ok value := by
  obtain ⟨within, same⟩ := List.getElem?_eq_some_iff.mp found
  -- the lines before this one have been read, and the others are still ahead
  obtain ⟨front, back, rfl, length⟩ :
      ∃ front back, values = front ++ value :: back ∧ front.length = index := by
    refine ⟨values.take index, values.drop (index + 1), ?_,
      List.length_take_of_le (Nat.le_of_lt within)⟩
    rw [← same, ← List.drop_eq_getElem_cons within, List.take_append_drop]
  subst length
  have earlier := hasRead_continued
    (fun other member => legible other (List.mem_append_left _ member))
    (fun index other found => reads index other (getElem?_of_front found _)) input
  have stepped := earlier.step (legible value (List.mem_append_right _ List.mem_cons_self))
    (reads front.length value found)
  rw [← continued_succ] at stepped
  exact ⟨stepped.1.going, stepped.2⟩

/-- One more read finds the end of the input, which counts as nil. -/
theorem HasRead.get_nil {program : Program} {start : Machine} {values : List Value} {run : Run}
    {kind : Kind} {ref : Variable} (read : HasRead start values [] run)
    (asks : program.ReadsAt start.frames (start.pc + values.length) kind ref) :
    (run.advance program).ending = none ∧
      (run.advance program).machine.frames.get ref = .ok .nil := by
  have given : run.machine.input.read kind = (.ok none, ⟨[]⟩) := by
    rw [read.input]
    exact Input.read_nil kind
  obtain ⟨frames, assigned, goes, after⟩ := step_of_readsAt (asks.later read) given
  rw [Run.advance_of_going read.going, goes, after]
  refine ⟨rfl, ?_⟩
  simp only [Frames.get_of_set assigned, if_true]
  rfl

/-- The values that a program writes line by line are what a program reads from its output,
each one into the variable of its READ, and no value is left after them. Every integer can be
among them, since its text is read as a decimal number and as the integer itself. -/
theorem written_lines_are_read_back :
    (∀ (writer reader : Program) (first start : Machine) (values : List Value)
      (refs : Nat → Variable),
      (∀ value ∈ values, value.Legible) → writer.WritesLines first values →
      first.output.sink.TakesAll → first.output.text = [] →
      reader.ReadsLines start values refs →
      let written := (Run.start first).continued writer (2 * values.length)
      let last := (Run.start start).continued reader values.length
      written.ending = none ∧
        (writer.size = first.pc + 2 * values.length →
          ∃ execution, first.execution? (2 * values.length + 1) writer = some execution ∧
            execution.machine = written.machine.closed (.halted .completed) ∧
            execution.machine.output.text = written.machine.output.text) ∧
        (start.input = ⟨Text.utf8 written.machine.output.text⟩ →
          (∀ index value, values[index]? = some value →
            let run := (Run.start start).continued reader (index + 1)
            run.ending = none ∧ run.machine.frames.get (refs index) = .ok value) ∧
          last.ending = none ∧ (∀ kind, (last.machine.input.read kind).1 = .ok none) ∧
          ∀ kind ref, reader.ReadsAt start.frames (start.pc + values.length) kind ref →
            (last.advance reader).ending = none ∧
              (last.advance reader).machine.frames.get ref = .ok .nil)) ∧
    ∀ n : Int64, Literal.parseInt (Value.int n).text = .ok (some n) ∧
      ∃ digits, Literal.baseAndDigits (Literal.takeSign (Value.int n).text).2 =
        .ok (10, digits) := by
  constructor
  · intro writer reader first start values refs legible writes takes nothing reads
    have wrote := wrote_continued legible writes takes
    refine ⟨wrote.going, fun size => ?_, ?_⟩
    · have past := Nat.le_of_eq (size.trans wrote.place.symm)
      obtain ⟨execution, executed, same⟩ := execution?_of_past wrote.going past
      exact ⟨execution, executed, same, same ▸ text_closed _ _⟩
    rw [wrote.text, nothing, List.nil_append]
    intro piped
    have read : HasRead start values [] ((Run.start start).continued reader values.length) :=
      hasRead_continued legible reads (by rw [List.append_nil, piped])
    refine ⟨fun index value found => get_of_readsLines legible reads piped found, read.going, ?_,
      fun kind ref asks => read.get_nil asks⟩
    intro kind
    rw [read.input]
    exact congrArg Prod.fst (Input.read_nil kind)
  · intro n
    refine ⟨Literal.parseInt_ofInt n, Text.ofNat n.toInt.natAbs, ?_⟩
    change Literal.baseAndDigits (Literal.takeSign (Text.ofInt n.toInt)).2 = _
    rw [Literal.takeSign_ofInt, Literal.baseAndDigits_ofNat]

/-- Writes the least integer, a truth value and a text with a carriage return inside. -/
def writesThree : Program :=
  ⟨[⟨1, "WRITE".toList, [⟨.literal .int, "-9223372036854775808".toList⟩]⟩,
      ⟨2, "WRITE".toList, [lineFeed]⟩,
      ⟨3, "WRITE".toList, [⟨.literal .bool, "true".toList⟩]⟩,
      ⟨4, "WRITE".toList, [lineFeed]⟩,
      ⟨5, "WRITE".toList, [⟨.literal .string, "0x1\r 8".toList⟩]⟩,
      ⟨6, "WRITE".toList, [lineFeed]⟩], []⟩

def readsFour : Program :=
  ⟨[⟨1, "READ".toList, [⟨.var, "GF@x".toList⟩, ⟨.type, "int".toList⟩]⟩,
      ⟨2, "READ".toList, [⟨.var, "GF@x".toList⟩, ⟨.type, "bool".toList⟩]⟩,
      ⟨3, "READ".toList, [⟨.var, "GF@x".toList⟩, ⟨.type, "string".toList⟩]⟩,
      ⟨4, "READ".toList, [⟨.var, "GF@x".toList⟩, ⟨.type, "float".toList⟩]⟩], []⟩

/-- The least integer, a truth value, and a text that looks like a number. -/
def threeValues : List Value := [.int Int64.minValue, .bool true, .string "0x1\r 8".toList]

def writtenThree : Run := (Run.start (.start ⟨[]⟩ .unbounded)).continued writesThree 6

/-- A machine that is given what has been written. -/
def givenThree : Machine :=
  ⟨⟨[(['x'], .uninitialized)], none, []⟩, [], 0, 0, ⟨Text.utf8 writtenThree.machine.output.text⟩,
    .unbounded⟩

/-- The three values are read back, and a fourth one is not there. -/
theorem three_lines_are_read_back :
    writtenThree.machine.output.text = "-9223372036854775808\ntrue\n0x1\r 8\n".toList ∧
      (∀ index value, threeValues[index]? = some value →
        let run := (Run.start givenThree).continued readsFour (index + 1)
        run.ending = none ∧ run.machine.frames.get ⟨.gf, ['x']⟩ = .ok value) ∧
      (((Run.start givenThree).continued readsFour 3).advance readsFour).machine.frames.get
        ⟨.gf, ['x']⟩ = .ok .nil := by
  have writes : writesThree.WritesLines (.start ⟨[]⟩ .unbounded) threeValues := by
    intro index value found
    match index with
    | 0 | 1 | 2 =>
      cases found
      exact ⟨⟨_, ⟨_, rfl, rfl, rfl⟩, by decide +kernel⟩, _, rfl, rfl, rfl⟩
    | index + 3 => cases found
  have asks (index : Nat) (kind : Kind) (found : [Kind.int, .bool, .string, .float][index]? =
      some kind) : readsFour.ReadsAt givenThree.frames index kind ⟨.gf, ['x']⟩ := by
    match index with
    | 0 | 1 | 2 | 3 =>
      cases found
      exact ⟨⟨_, _, _, rfl, rfl, rfl, rfl, rfl, rfl, rfl⟩, _, rfl⟩
    | index + 4 => cases found
  have reads : readsFour.ReadsLines givenThree threeValues fun _ => ⟨.gf, ['x']⟩ := by
    intro index value found
    have start : givenThree.pc + index = index := Nat.zero_add index
    rw [start]
    refine asks index value.kind ?_
    match index with
    | 0 | 1 | 2 =>
      cases found
      rfl
    | index + 3 => cases found
  obtain ⟨_, _, gives⟩ := written_lines_are_read_back.1 writesThree readsFour
    (.start ⟨[]⟩ .unbounded) givenThree threeValues (fun _ => ⟨.gf, ['x']⟩) (by decide) writes
    Sink.takesAll_unbounded rfl reads
  have steps : 2 * threeValues.length = 6 := rfl
  rw [steps] at gives
  obtain ⟨each, _, _, more⟩ := gives rfl
  exact ⟨by decide +kernel, each, (more .float _ (asks 3 .float rfl)).2⟩

end IPPcode24
