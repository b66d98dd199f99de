import IPPcode24.Proofs.CrashingSources
import IPPcode24.Proofs.Endings
import IPPcode24.Proofs.Reachable
import IPPcode24.Proofs.Targets

/-!
# Crashes

Reading a number can crash, and so can everything that reads one: a constant of a
source text, a literal that an instruction looks up, and a line of input. Each of the
three crashes exactly when it gets to a number whose text is divided, and nothing else
crashes.
-/

namespace IPPcode24

/-! ## Plans that crash -/

/-- The checks that come before the arguments of an instruction are looked up. -/
structure Checked (opcode : Opcode) (labels : LabelTable) (operands : List Operand) : Prop where
  enough : opcode.signature.length ≤ operands.length
  accepted : Fill opcode.signature operands
  labelled : opcode.action.namesLabel = true → ∀ operand, operands[0]? = some operand →
    ∃ place, labels.resolve? operand.text = some place
  symbol : opcode = .nots → ∀ operand, operands[2]? = some operand →
    operand.operandClass.isSymbol = true

/-- The first argument that stands for nothing is a number with a divided text. -/
def MeetsDivided (frames : Frames) (action : Action) (arguments : List Operand) : Prop :=
  ∃ before operand after kind, arguments = before ++ operand :: after ∧
    (∀ earlier ∈ before, ∃ value, action.lookUp frames earlier = .ok value) ∧
    operand.operandClass = .literal kind ∧ Literal.IsNumeric kind ∧
    Literal.Divided operand.text

section Plans

variable {opcode : Opcode} {labels : LabelTable} {frames : Frames} {operands : List Operand}

theorem requireLabel_eq_ok {action : Action} :
    action.requireLabel labels operands = .ok () ↔
      (action.namesLabel = true → ∀ operand, operands[0]? = some operand →
        ∃ place, labels.resolve? operand.text = some place) := by
  cases operands with
  | nil => simp [Action.requireLabel]
  | cons operand rest =>
    cases names : action.namesLabel with
    | false => simp [Action.requireLabel_of_not names]
    | true =>
      cases resolved : labels.resolve? operand.text <;>
        simp [Action.requireLabel, LabelTable.target, names, resolved, fail]

theorem requireSymbol_eq_ok :
    opcode.action.requireSymbol opcode.symbolOrder operands = .ok () ↔
      (opcode = .nots → ∀ operand, operands[2]? = some operand →
        operand.operandClass.isSymbol = true) := by
  by_cases negates : opcode = .nots
  · subst negates
    rcases operands with _ | ⟨a, _ | ⟨b, _ | ⟨c, rest⟩⟩⟩
    · simp [Opcode.action, Action.requireSymbol]
    · simp [Opcode.action, Action.requireSymbol]
    · simp [Opcode.action, Action.requireSymbol]
    · simp [Opcode.action, Opcode.symbolOrder, Opcode.isStack, Action.requireSymbol,
        orError_eq_ok, checkClass_eq_ok, Slot.accepts]
  · simp [requireSymbol_of_ne_nots negates, negates]

theorem checked_iff :
    Checked opcode labels operands ↔
      checkOperands opcode operands = .ok () ∧
        opcode.action.requireLabel labels operands = .ok () ∧
        opcode.action.requireSymbol opcode.symbolOrder operands = .ok () := by
  rw [checkOperands_eq_ok, requireLabel_eq_ok, requireSymbol_eq_ok]
  exact ⟨fun checked => ⟨⟨checked.enough, checked.accepted⟩, checked.labelled, checked.symbol⟩,
    fun ⟨⟨enough, accepted⟩, labelled, symbol⟩ => ⟨enough, accepted, labelled, symbol⟩⟩

theorem lookUp_eq_crash {action : Action} {operand : Operand} {crash : Crash}
    (other : action ≠ .read) :
    action.lookUp frames operand = .error (.crash crash) ↔
      ∃ kind, operand.operandClass = .literal kind ∧
        Literal.decode kind operand.text = .error crash := by
  constructor
  · intro failed
    cases (unresolved_of_lookUp failed).2 with
    | crashed isLiteral crashed => exact ⟨_, isLiteral, crashed⟩
  · rintro ⟨kind, isLiteral, crashed⟩
    have content : frames.content operand = .error (.crash crash) := by
      simp [Frames.content, isLiteral, Operand.literal, crashed, orCrash]
    have value : frames.value operand = .error (.crash crash) := by
      simp [Frames.value, content]
    cases action with
    | read => exact absurd rfl other
    | typeOf => exact content
    | _ => exact value

/-- A plan crashes when its checks pass and the look-up of its arguments crashes. -/
theorem plan_eq_crash_iff_mapM {crash : Crash} :
    opcode.plan labels frames operands = .error (.crash crash) ↔
      Checked opcode labels operands ∧
        (opcode.action.arguments opcode.symbolOrder operands).mapM
          (opcode.action.lookUp frames) = .error (.crash crash) := by
  rw [checked_iff]
  constructor
  -- every stage but the look-up fails with a fault, if it fails
  · intro failed
    rcases Chain.bind_eq_error.mp failed with failed | ⟨_, checked, failed⟩
    · obtain ⟨fault, _, impossible⟩ := orError_eq_error.mp failed
      cases impossible
    have checked := orError_eq_ok.mp checked
    have enough := (checkOperands_eq_ok.mp checked).1
    rw [opcode.signature_eq] at enough
    rw [Action.plan_eq_staged enough] at failed
    rcases Chain.bind_eq_error.mp failed with failed | ⟨_, labelled, failed⟩
    · obtain ⟨_, _, _, impossible⟩ := noLabel_of_requireLabel failed
      cases impossible
    rcases Chain.bind_eq_error.mp failed with failed | ⟨_, symbol, failed⟩
    · obtain ⟨_, _, _, _, impossible⟩ := wrongThird_of_requireSymbol failed
      cases impossible
    rcases Chain.bind_eq_error.mp failed with failed | ⟨values, _, failed⟩
    · exact ⟨⟨checked, labelled, symbol⟩, failed⟩
    rcases Chain.bind_eq_error.mp failed with failed | ⟨outcome, given, failed⟩
    · obtain ⟨fault, impossible, _⟩ := opcode.action.outcome_failsWith values _ failed
      cases impossible
    · have own := opcode.action.outcome_gives values outcome given
      have obstacle : ∃ fault, Failure.crash crash = .error fault ∧
          Obstacle opcode labels frames operands (.crash crash) :=
        obstacle_of_effect own enough failed
      obtain ⟨fault, impossible, _⟩ := obstacle
      cases impossible
  · rintro ⟨⟨checked, labelled, symbol⟩, crashed⟩
    have enough := (checkOperands_eq_ok.mp checked).1
    rw [opcode.signature_eq] at enough
    rw [Opcode.plan, checked, orError_ok, Chain.bind_ok, Action.plan_eq_staged enough,
      Action.staged, labelled, Chain.bind_ok, symbol, Chain.bind_ok, crashed, Chain.bind_error]

theorem plan_eq_crash_iff {crash : Crash} :
    opcode.plan labels frames operands = .error (.crash crash) ↔
      crash = .dividedCharacter ∧ Checked opcode labels operands ∧
        MeetsDivided frames opcode.action
          (opcode.action.arguments opcode.symbolOrder operands) := by
  rw [plan_eq_crash_iff_mapM, Chain.mapM_eq_error]
  constructor
  · rintro ⟨checked, before, operand, after, split, earlier, crashed⟩
    obtain ⟨other, _⟩ := unresolved_of_lookUp crashed
    obtain ⟨kind, isLiteral, undecoded⟩ := (lookUp_eq_crash other).mp crashed
    obtain ⟨rfl, numeric, divided⟩ := Literal.decode_eq_error.mp undecoded
    exact ⟨rfl, checked, before, operand, after, kind, split, earlier, isLiteral, numeric,
      divided⟩
  · rintro ⟨rfl, checked, before, operand, after, kind, split, earlier, isLiteral, numeric,
      divided⟩
    refine ⟨checked, before, operand, after, split, earlier, ?_⟩
    -- READ looks up nothing but the name of a type, which is no literal
    have other : opcode.action ≠ .read := by
      intro reads
      obtain rfl : opcode = .read := by cases opcode <;> cases reads; rfl
      have argument : operand ∈ Action.read.arguments Opcode.read.symbolOrder operands := by
        change operand ∈ Opcode.read.action.arguments _ operands
        rw [split]
        simp
      rw [Action.isType_of_mem_arguments checked.accepted argument] at isLiteral
      cases isLiteral
    exact (lookUp_eq_crash other).mpr
      ⟨kind, isLiteral, Literal.decode_eq_error.mpr ⟨rfl, numeric, divided⟩⟩

theorem operandAt_of_getElem? {position : Nat} {operand : Operand}
    (found : operands[position]? = some operand) : operandAt operands position = .ok operand := by
  simp only [operandAt, found]

/-- READ plans to read a value of the type that its second operand names. -/
theorem plan_eq_read_iff {target : Operand} {kind : Kind} :
    opcode.plan labels frames operands = .ok (.read target kind) ↔
      opcode = .read ∧ Checked .read labels operands ∧ operands[0]? = some target ∧
        ∃ type, operands[1]? = some type ∧ Kind.ofName? type.text = some kind := by
  constructor
  · intro planned
    obtain ⟨enough, accepted, values, outcome, _, given, aimed⟩ := staged_of_plan planned
    have own := opcode.action.outcome_gives values outcome given
    cases aimed with
    | alone => exact own.elim
    | read first =>
      change opcode.action = .read at own
      obtain rfl : opcode = .read := by cases opcode <;> cases own; rfl
      obtain ⟨_, _, planned⟩ := Chain.bind_eq_ok.mp planned
      obtain ⟨type, second, planned⟩ := Chain.bind_eq_ok.mp planned
      obtain ⟨named, known, planned⟩ := Chain.bind_eq_ok.mp planned
      obtain ⟨other, _, planned⟩ := Chain.bind_eq_ok.mp planned
      cases planned
      exact ⟨rfl, ⟨enough, accepted, nofun, nofun⟩, first, type, operandAt_eq_ok second,
        asKind_eq_ok.mp (orError_eq_ok.mp known)⟩
  · rintro ⟨rfl, checked, first, type, second, known⟩
    have passed := (checked_iff.mp checked).1
    rw [Opcode.plan, passed, orError_ok, Chain.bind_ok]
    simp only [Opcode.action, Action.plan, operandAt_of_getElem? second,
      operandAt_of_getElem? first, asKind_eq_ok.mpr known, orError_ok, Chain.bind_ok,
      Chain.pure_eq_ok]

theorem opcode_of_plan_write {text : Text}
    (planned : opcode.plan labels frames operands = .ok (.write text)) : opcode = .write := by
  obtain ⟨_, _, values, outcome, _, given, aimed⟩ := staged_of_plan planned
  have own := opcode.action.outcome_gives values outcome given
  cases aimed with
  | alone =>
    change opcode.action = .write at own
    cases opcode <;> cases own
    rfl

end Plans

/-! ## Steps that crash -/

/-- The next instruction of a machine gets to a number with a divided text: among its
arguments, or, when it is to read a number, on the next line of the input. -/
inductive GetsDivided (program : Program) (machine : Machine) : Prop where
  | literal {instruction : Instruction} {opcode : Opcode}
      (dispatched : Dispatches program machine instruction opcode)
      (checked : Checked opcode program.labels instruction.operands)
      (meets : MeetsDivided machine.frames opcode.action
        (opcode.action.arguments opcode.symbolOrder instruction.operands)) :
      GetsDivided program machine
  | line {instruction : Instruction} {type : Operand} {kind : Kind} {line : Text}
      (dispatched : Dispatches program machine instruction .read)
      (checked : Checked .read program.labels instruction.operands)
      (second : instruction.operands[1]? = some type)
      (named : Kind.ofName? type.text = some kind) (numeric : Literal.IsNumeric kind)
      (next : machine.input.nextLine.1 = some line)
      (divided : Literal.Divided (Text.trim line)) : GetsDivided program machine

section Steps

variable {program : Program} {machine : Machine}

theorem ending_of_crash {instruction : Instruction} {opcode : Opcode} {crash : Crash}
    (dispatched : Dispatches program machine instruction opcode)
    (crashed : (machine.counted.execute program.labels opcode instruction.operands).flow =
      .error (.crash crash)) : (machine.step program).ending = some (.crashed crash) := by
  rw [ending_of_dispatches dispatched]
  exact (Performed.settle_of_error crashed).2

/-- A step crashes exactly when its instruction gets to a divided number. -/
theorem step_crashes_iff {crash : Crash} :
    (machine.step program).ending = some (.crashed crash) ↔
      crash = .dividedCharacter ∧ GetsDivided program machine := by
  constructor
  · intro ended
    rcases ending_of_step ended with ⟨halt, impossible⟩ | ⟨failure, same, failing⟩
    · cases impossible
    obtain rfl := Failure.ending_eq_crashed same.symm
    cases failing with
    | planless dispatched failed =>
      obtain ⟨rfl, checked, meets⟩ := plan_eq_crash_iff.mp failed
      exact ⟨rfl, .literal dispatched checked meets⟩
    | refused dispatched planned refusal =>
      cases refusal with
      | readCrash crashed =>
        obtain ⟨rfl, checked, first, type, second, named⟩ := plan_eq_read_iff.mp planned
        obtain ⟨rfl, numeric, line, next, divided⟩ := Input.read_eq_error.mp crashed
        exact ⟨rfl, .line dispatched checked second named numeric next divided⟩
  · rintro ⟨rfl, gets⟩
    cases gets with
    | literal dispatched checked meets =>
      refine ending_of_crash dispatched ?_
      have failed := plan_eq_crash_iff.mpr ⟨rfl, checked, meets⟩
      simp only [Machine.execute, Machine.counted, failed]
    | @line instruction type kind line dispatched checked second named numeric next divided =>
      refine ending_of_crash dispatched ?_
      obtain ⟨target, rest, present⟩ :=
        exists_of_one_le (Nat.le_of_succ_le checked.enough)
      have first : instruction.operands[0]? = some target := by rw [present]; rfl
      have planned : Opcode.read.plan program.labels machine.frames instruction.operands =
          .ok (.read target kind) :=
        plan_eq_read_iff.mpr ⟨rfl, checked, first, type, second, named⟩
      have crashed := Input.read_eq_error.mpr ⟨rfl, numeric, line, next, divided⟩
      simp only [Machine.execute, Machine.counted, planned, Machine.perform, Machine.readInto]
      rw [crashed]

theorem execution_crashes_iff {crash : Crash} :
    (∃ fuel execution, machine.execution? fuel program = some execution ∧
      execution.ending = .crashed crash) ↔
      crash = .dividedCharacter ∧
        ∃ last, Passes program machine last ∧ GetsDivided program last := by
  constructor
  · rintro ⟨fuel, execution, executed, crashed⟩
    obtain ⟨last, passed, _, reached, ended, flushed⟩ := exists_passes_of_execution executed
    have unchanged : reached = .crashed crash := by
      rcases flushed_cases (last.step program).machine reached with same | ⟨error, failed⟩
      · rw [← same, ← flushed, crashed]
      · rw [flushed, failed] at crashed
        cases crashed
    rw [unchanged] at ended
    obtain ⟨rfl, gets⟩ := step_crashes_iff.mp ended
    exact ⟨rfl, last, passed, gets⟩
  · rintro ⟨rfl, last, passed, gets⟩
    have ended := step_crashes_iff.mpr ⟨rfl, gets⟩
    obtain ⟨fuel, execution, executed, _, flushed⟩ := exists_execution_of_passes passed ended
    exact ⟨fuel, execution, executed, flushed⟩

end Steps

/-- All crashes are due to divided numbers. A number crashes when its own text is divided,
reading a source text when it gets to a constant with such a text, and an execution when
its run passes a machine whose next instruction gets to such a literal or such a line of
input. Building a program has no crash among its results. -/
theorem crashes_iff_divided (text : Text) (program : Program) (machine : Machine)
    (crash : Crash) :
    (Literal.parseInt text = .error crash ↔
      crash = .dividedCharacter ∧ Literal.Divided text) ∧
    (Literal.parseFloat text = .error crash ↔
      crash = .dividedCharacter ∧ Literal.Divided text) ∧
    (Source.assemble text = .error (.crash crash) ↔
      crash = .dividedCharacter ∧ Source.GetsDividedConstant text) ∧
    ((∃ fuel execution, machine.execution? fuel program = some execution ∧
        execution.ending = .crashed crash) ↔
      crash = .dividedCharacter ∧
        ∃ last, Passes program machine last ∧ GetsDivided program last) :=
  ⟨Literal.parseInt_eq_error, Literal.parseFloat_eq_error, Source.assemble_eq_crash_iff,
    execution_crashes_iff⟩

/-- The sign of a currency takes three bytes, so as a number it is divided: neither
reading gives none, and the crash is met in a source text, in a literal and on a line of
input. -/
theorem currency_sign_crashes :
    Literal.parseInt ['€'] = .error .dividedCharacter ∧
    Literal.parseFloat ['€'] = .error .dividedCharacter ∧
    Source.assemble ".IPPcode24\nWRITE int@€\n".toList = .error (.crash .dividedCharacter) ∧
    ((Machine.start ⟨[]⟩ .unbounded).step
      ⟨[⟨1, "WRITE".toList, [⟨.literal .int, ['€']⟩]⟩], []⟩).ending =
        some (.crashed .dividedCharacter) ∧
    ((Machine.start ⟨Text.utf8 "€\n".toList⟩ .unbounded).step
      ⟨[⟨1, "READ".toList, [⟨.var, "GF@x".toList⟩, ⟨.type, "float".toList⟩]⟩], []⟩).ending =
        some (.crashed .dividedCharacter) := by
  decide +kernel

end IPPcode24
