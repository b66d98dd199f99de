import IPPcode24.Proofs.Assembling
import IPPcode24.Proofs.Endings
import IPPcode24.Proofs.Reachable
import IPPcode24.Proofs.Targets

/-!
# Assembled programs

The instructions of a source text have been checked against their signatures and their
literals have been read, so a program of them can only be refused for a label that is
declared twice, and when it runs, only the values, the frames, the labels and the ends
of input and output can fail. In particular a value that does not serve is one that an
operand has been found to stand for.
-/

namespace IPPcode24

open Source

/-! ## Operands -/

/-- The operand can be used for what its class promises: a variable names one, a type is
a type, and a literal has a value of its type. -/
structure Operand.Usable (operand : Operand) : Prop where
  names : operand.operandClass = .var → ∃ ref, Variable.ofSource? operand.text = some ref
  type : operand.operandClass = .type → ∃ kind, (Value.string operand.text).asKind = .ok kind
  stands : ∀ kind, operand.operandClass = .literal kind →
    ∃ value, operand.literal = .ok value ∧ value.kind = kind ∧ value ≠ .uninitialized

theorem ofSource?_of_isName (tag : FrameTag) {name : Text} (named : isName name = true) :
    Variable.ofSource? (tag.name.toList ++ '@' :: name) = some ⟨tag, name⟩ := by
  have cut := Text.cut_append tag.isWord_name.2 name
  have occupied := (isWord_of_isName named).occupied
  simp [Variable.ofSource?, cut, FrameTag.ofName?_eq_some_iff.mpr rfl, occupied]

theorem literal_of_decode {operand : Operand} {kind : Kind} {value : Value}
    (isLiteral : operand.operandClass = .literal kind)
    (decoded : Literal.decode kind operand.text = .ok (some value)) :
    operand.literal = .ok value := by
  simp [Operand.literal, isLiteral, decoded, orCrash]

theorem Operand.Writable.usable {operand : Operand} (writable : operand.Writable) :
    operand.Usable := by
  obtain ⟨operandClass, text⟩ := operand
  cases operandClass with
  | var =>
    obtain ⟨tag, name, rfl, named⟩ := writable
    exact ⟨fun _ => ⟨_, ofSource?_of_isName tag named⟩, nofun, nofun⟩
  | label => exact ⟨nofun, nofun, nofun⟩
  | type =>
    obtain ⟨kind, rfl⟩ := writable
    exact ⟨nofun, fun _ => ⟨kind, asKind_eq_ok.mpr (Kind.ofName?_eq_some_iff.mpr rfl)⟩, nofun⟩
  | literal kind =>
    refine ⟨nofun, nofun, fun other same => ?_⟩
    obtain rfl := OperandClass.literal.inj same
    have decoded : ∃ value, Literal.decode kind text = .ok (some value) := by
      cases kind with
      | string => exact ⟨.string text, rfl⟩
      | int | bool | float | nil => exact writable
    obtain ⟨value, decoded⟩ := decoded
    obtain ⟨kind, initialized, _⟩ := decode_eq_some decoded
    exact ⟨value, literal_of_decode rfl decoded, kind, initialized⟩

/-! ## Building -/

theorem Instruction.Proper.dispatch {instruction : Instruction} {opcode : Opcode}
    (proper : instruction.Proper) (known : instruction.opcode? = some opcode) :
    Fits opcode.signature instruction.operands := by
  obtain ⟨own, same, fits⟩ := proper
  rw [Instruction.opcode?, same, own.ofMnemonic?_mnemonic] at known
  obtain rfl := Option.some.inj known
  exact fits

theorem Instruction.Proper.opcode?_ne_none {instruction : Instruction}
    (proper : instruction.Proper) : instruction.opcode? ≠ none := by
  obtain ⟨own, same, _⟩ := proper
  rw [Instruction.opcode?, same, own.ofMnemonic?_mnemonic]
  exact nofun

theorem Instruction.Proper.exists_declares {instruction : Instruction}
    (proper : instruction.Proper) (isLabel : instruction.isLabel = true) :
    ∃ name, instruction.Declares name := by
  obtain ⟨order, mnemonic, operands⟩ := instruction
  have fits := proper.dispatch (Instruction.isLabel_iff.mp isLabel)
  cases fits with
  | @cons _ _ operand _ accepted _ others =>
    cases others
    obtain ⟨operandClass, name⟩ := operand
    obtain rfl : operandClass = .label := of_decide_eq_true accepted
    exact ⟨name, isLabel, rfl⟩

/-- Consecutive keys and proper instructions leave a single reason to refuse a program. -/
theorem duplicateLabel_of_build {records : List Instruction} {error : BuildError}
    (keyed : Keyed 1 records) (proper : ∀ instruction ∈ records, instruction.Proper)
    (refused : Program.build records = .error error) :
    ∃ name place, error = .duplicateLabel name place := by
  rw [Program.build_of_keyed keyed, Chain.map_eq_error] at refused
  obtain ⟨place, fault, _⟩ := LabelTable.firstFault_of_scan refused
  cases fault with
  | malformed found isLabel unformed =>
    obtain ⟨name, declares⟩ := (proper _ (List.mem_of_getElem? found)).exists_declares isLabel
    exact absurd declares (unformed name)
  | repeated before first again => exact ⟨_, _, rfl⟩

/-! ## Faults of a run -/

/-- An operand of the next instruction stands for the value. -/
def Resolves (program : Program) (machine : Machine) (value : Value) : Prop :=
  ∃ instruction operand, program.instructions[machine.pc]? = some instruction ∧
    operand ∈ instruction.operands ∧ machine.frames.value operand = .ok value

/-- The reason is the kind or the range of a value that an operand stands for. -/
inductive AboutValue (program : Program) (machine : Machine) : BadOperand → Prop where
  | wrongKind {value : Value} {required : Requirement}
      (resolved : Resolves program machine value) (differs : value.kind ≠ required.kind) :
      AboutValue program machine (.wrongKind required value.kind)
  | fractional {x : Binary64} (resolved : Resolves program machine (.float x))
      (unequal : x.integral? = none) : AboutValue program machine (.mismatch (.fractional x))
  | noInteger {x : Binary64} (resolved : Resolves program machine (.float x))
      (outside : x.toInt? = none) : AboutValue program machine (.mismatch (.noInteger x))
  | unordered {left right : Value} (hleft : Resolves program machine left)
      (hright : Resolves program machine right) (either : left = .nil ∨ right = .nil) :
      AboutValue program machine (.mismatch (.unordered left.kind right.kind))
  | incomparable {left right : Value} (hleft : Resolves program machine left)
      (hright : Resolves program machine right) (differs : left.kind ≠ right.kind) :
      AboutValue program machine (.mismatch (.incomparable left.kind right.kind))

/-- What can still be wrong with the next instruction of an assembled program. -/
inductive Blame (program : Program) (machine : Machine) : Fault → Prop where
  | value {reason : BadOperand} (about : AboutValue program machine reason) :
      Blame program machine (.operandValue reason)
  | missing : Blame program machine .missingValue
  | frame (error : FrameError) : Blame program machine error.fault
  | label (name : Text) : Blame program machine (.labelUndefined name)
  | emptyCallStack : Blame program machine .emptyCallStack
  | divisionByZero : Blame program machine .divisionByZero
  | exitCode (code : Int64) : Blame program machine (.exitCode code)
  | character (reason : CharacterError) : Blame program machine (.character reason)
  | output (error : OutputError) : Blame program machine (.output error)
  | tooLong {text : Text} (resolved : Resolves program machine (.string text))
      (long : 0x8000000000000000 ≤ text.length) :
      Blame program machine (.internal .lengthOutOfRange)

section Blame

variable {program : Program} {machine : Machine} {instruction : Instruction} {opcode : Opcode}

theorem Action.TakesValues.lookUp_eq {action : Action} (takes : action.TakesValues)
    (frames : Frames) (operand : Operand) :
    action.lookUp frames operand = frames.value operand := by
  cases action with
  | read => exact absurd rfl takes.1
  | typeOf => exact absurd rfl takes.2
  | _ => rfl

theorem blame_of_complaint {values : List Value} {fault : Fault}
    (dispatched : Dispatches program machine instruction opcode)
    (fits : Fits opcode.signature instruction.operands)
    (found : ∀ value ∈ values,
      ∃ operand ∈ opcode.action.arguments opcode.symbolOrder instruction.operands,
        opcode.action.lookUp machine.frames operand = .ok value)
    (complaint : Complaint opcode.action values fault) : Blame program machine fault := by
  have resolves {value : Value} (takes : opcode.action.TakesValues) (given : value ∈ values) :
      Resolves program machine value := by
    obtain ⟨operand, argument, found⟩ := found value given
    rw [takes.lookUp_eq] at found
    exact ⟨instruction, operand, dispatched.fetched, Action.mem_of_mem_arguments argument, found⟩
  -- READ is apart: what it is given is the text of a type and not the value of a symbol
  have typeName {value : Value} (reads : opcode.action = .read) (given : value ∈ values) :
      ∃ kind : Kind, value = .string kind.name.toList := by
    obtain ⟨operand, argument, found⟩ := found value given
    have fill := fits.fill
    rw [opcode.signature_eq] at fill
    rw [reads] at argument found fill
    cases found
    have isType := Action.isType_of_mem_arguments fill argument
    have writable := fits.writable operand (Action.mem_of_mem_arguments argument)
    rw [Operand.Writable] at writable
    rw [isType] at writable
    obtain ⟨kind, same⟩ := writable
    exact ⟨kind, congrArg Value.string same⟩
  cases complaint with
  | missing => exact .missing
  | wrongKind takes given differs => exact .value (.wrongKind (resolves takes given) differs)
  | noName reads given differs =>
    obtain ⟨kind, rfl⟩ := typeName reads given
    exact absurd rfl differs
  | noTypeName reads given unknown =>
    obtain ⟨kind, same⟩ := typeName reads given
    rw [Value.string.inj same, Kind.ofName?_eq_some_iff.mpr rfl] at unknown
    cases unknown
  | fractional takes given unequal => exact .value (.fractional (resolves takes given) unequal)
  | noInteger takes given outside => exact .value (.noInteger (resolves takes given) outside)
  | unordered takes leftGiven rightGiven either =>
    exact .value (.unordered (resolves takes leftGiven) (resolves takes rightGiven) either)
  | incomparable takes leftGiven rightGiven differs =>
    exact .value (.incomparable (resolves takes leftGiven) (resolves takes rightGiven) differs)
  | divisionByZero => exact .divisionByZero
  | exitCode code => exact .exitCode code
  | character reason => exact .character reason
  | tooLong takes given long => exact .tooLong (resolves takes given) long

theorem blame_of_obstacle {fault : Fault}
    (dispatched : Dispatches program machine instruction opcode)
    (fits : Fits opcode.signature instruction.operands)
    (obstacle : Obstacle opcode program.labels machine.frames instruction.operands
      (.error fault)) : Blame program machine fault := by
  have usable (operand : Operand) (member : operand ∈ instruction.operands) : operand.Usable :=
    (fits.writable operand member).usable
  cases obstacle with
  | fewOperands few => exact absurd few (by rw [fits.length_eq]; exact Nat.lt_irrefl _)
  | wrongClass hslot hoperand refused =>
    rw [fits.fill _ _ _ hslot hoperand] at refused
    cases refused
  | wrongThird third past refused =>
    have present := (List.getElem?_eq_some_iff.mp third).1
    rw [fits.length_eq] at present
    omega
  | noLabel first unknown => exact .label _
  | complaint found complaint => exact blame_of_complaint dispatched fits found complaint
  | @noTarget operand first slot unreadable =>
    have isVar := of_decide_eq_true (fits.fill 0 .var operand slot first)
    obtain ⟨ref, readable⟩ := (usable operand (List.mem_of_getElem? first)).names isVar
    rw [readable] at unreadable
    cases unreadable
  | unresolved argument symbol unresolved =>
    have usable := usable _ (Action.mem_of_mem_arguments argument)
    cases unresolved with
    | notVariable unreadable isVar =>
      obtain ⟨ref, readable⟩ := usable.names isVar
      rw [readable] at unreadable
      cases unreadable
    | unavailable readable refused => exact .frame _
    | missing declared => exact .missing
    | notLiteral isLiteral undecoded =>
      obtain ⟨value, literal, _⟩ := usable.stands _ isLiteral
      obtain ⟨kind, same, decoded⟩ := literal_eq_ok literal
      rw [isLiteral] at same
      cases same
      rw [decoded] at undecoded
      cases undecoded
    | noSymbol other =>
      rw [symbol] at other
      cases other

theorem blame_of_refusal {effect : Effect} {fault : Fault}
    (fits : Fits opcode.signature instruction.operands)
    (planned : opcode.plan program.labels machine.frames instruction.operands = .ok effect)
    (refusal : Refusal machine.counted effect (.error fault)) : Blame program machine fault := by
  cases refusal with
  | define refused => exact .frame _
  | assign refused => exact .frame _
  | push refused => exact .frame _
  | pop refused => exact .frame _
  | readSet refused => exact .frame _
  | write refused => exact .output _
  | ret empty => exact .emptyCallStack
  | readTarget unreadable =>
    obtain ⟨_, _, values, outcome, _, given, aimed⟩ := staged_of_plan planned
    have own := opcode.action.outcome_gives values outcome given
    cases aimed with
    | alone => exact own.elim
    | read first =>
      change opcode.action = .read at own
      have slot : opcode.signature[0]? = some .var := by
        rw [opcode.signature_eq, own]
        rfl
      have isVar := of_decide_eq_true (fits.fill 0 .var _ slot first)
      have usable := (fits.writable _ (List.mem_of_getElem? first)).usable
      obtain ⟨ref, readable⟩ := usable.names isVar
      rw [readable] at unreadable
      cases unreadable

theorem blame_of_failing {fault : Fault}
    (proper : ∀ instruction ∈ program.instructions, instruction.Proper)
    (failing : Failing program machine (.error fault)) : Blame program machine fault := by
  cases failing with
  | unknown fetched unknown =>
    exact absurd unknown (proper _ (List.mem_of_getElem? fetched)).opcode?_ne_none
  | planless dispatched failed =>
    have proper := proper _ (List.mem_of_getElem? dispatched.fetched)
    exact blame_of_obstacle dispatched (proper.dispatch dispatched.known)
      (obstacle_of_plan failed)
  | refused dispatched planned refusal =>
    have proper := proper _ (List.mem_of_getElem? dispatched.fetched)
    exact blame_of_refusal (proper.dispatch dispatched.known) planned refusal

end Blame

/-! ## Assembled programs -/

/-- Faults that blame the form of an instruction, or that are called internal. -/
inductive Fault.Malformed : Fault → Prop where
  | unknownOpcode (mnemonic : Text) : Malformed (.unknownOpcode mnemonic)
  | operandCount (opcode : Opcode) (found : Nat) : Malformed (.operandCount opcode found)
  | operandClass (position : Nat) (expected : Slot) (found : OperandClass) :
      Malformed (.operandClass position expected found)
  | internal (fault : InternalFault) : Malformed (.internal fault)

/-- The exit code of a program whose run ends so; a crash has none. -/
def Ending.exitCode? : Ending → Option Nat
  | halted halt => some halt.code
  | failed error => some error.exitCode
  | crashed _ => none

theorem Ending.malformed_of_exitCode? {ending : Ending}
    (code : ending.exitCode? = some 32 ∨ ending.exitCode? = some 99) :
    ∃ place fault, ending = .failed ⟨place, fault⟩ ∧ fault.Malformed := by
  cases ending with
  | crashed crash => rcases code with code | code <;> cases code
  | halted halt =>
    cases halt with
    | completed => rcases code with code | code <;> cases code
    | exit exitCode =>
      have bound := exitCode.isLt
      simp only [exitCode?, Halt.code, Option.some.injEq] at code
      omega
  | failed error =>
    obtain ⟨place, fault⟩ := error
    refine ⟨place, fault, rfl, ?_⟩
    cases fault with
    | unknownOpcode mnemonic => exact .unknownOpcode mnemonic
    | operandCount opcode found => exact .operandCount opcode found
    | operandClass position expected found => exact .operandClass position expected found
    | internal fault => exact .internal fault
    | _ => rcases code with code | code <;> cases code

theorem Blame.not_malformed {program : Program} {machine : Machine} {fault : Fault}
    (blame : Blame program machine fault) (notInternal : ∀ other, fault ≠ .internal other) :
    ¬ fault.Malformed := by
  intro malformed
  cases blame with
  | frame error => cases error <;> cases malformed
  | tooLong resolved long => exact notInternal _ rfl
  | _ => cases malformed

theorem Blame.aboutValue {program : Program} {machine : Machine} {reason : BadOperand}
    (blame : Blame program machine (.operandValue reason)) : AboutValue program machine reason := by
  generalize same : Fault.operandValue reason = fault at blame
  cases blame with
  | value about =>
    cases same
    exact about
  | frame error => cases error <;> cases same
  | _ => cases same

/-- A step of an assembled program does not fail for the form of its instruction, and when
it fails for the value of an operand, that is a value which an operand stands for. -/
theorem sound_of_step {program : Program} {machine : Machine} {place : Nat} {fault : Fault}
    (proper : ∀ instruction ∈ program.instructions, instruction.Proper)
    (short : ShortTexts program machine)
    (ended : (machine.step program).ending = some (.failed ⟨place, fault⟩)) :
    ¬ fault.Malformed ∧
      ∀ reason, fault = .operandValue reason → AboutValue program machine reason := by
  rcases ending_of_step ended with ⟨halt, impossible⟩ | ⟨failure, same, failing⟩
  · cases impossible
  rw [Failure.ending_eq_failed same.symm] at failing
  have blame := blame_of_failing proper failing
  refine ⟨blame.not_malformed ?_, ?_⟩
  · rintro other rfl
    exact not_failing_internal short other failing
  · rintro reason rfl
    exact blame.aboutValue

theorem exitCode?_of_execution {program : Program} {machine : Machine} {fuel : Nat}
    {execution : Execution} (proper : ∀ instruction ∈ program.instructions, instruction.Proper)
    (short : ∀ passed, Passes program machine passed → ShortTexts program passed)
    (executed : machine.execution? fuel program = some execution) :
    execution.ending.exitCode? ≠ some 32 ∧ execution.ending.exitCode? ≠ some 99 := by
  have sound (code : execution.ending.exitCode? = some 32 ∨
      execution.ending.exitCode? = some 99) : False := by
    obtain ⟨place, fault, failed, malformed⟩ := Ending.malformed_of_exitCode? code
    obtain ⟨last, passed, _, reached, ended, flushed⟩ := exists_passes_of_execution executed
    rw [failed] at flushed
    rcases flushed_cases (last.step program).machine reached with unchanged | ⟨other, unflushed⟩
    · rw [← flushed] at unchanged
      rw [← unchanged] at ended
      exact (sound_of_step proper (short last passed) ended).1 malformed
    · rw [unflushed] at flushed
      cases flushed
      cases malformed
  exact ⟨fun code => sound (Or.inl code), fun code => sound (Or.inr code)⟩

/-- A source text that is read makes a program unless it declares a label twice. Every
operand of the program can be used for what its class promises. Whatever the machine, and
so after any run from a fresh one, while the texts are short: the next step does not fail
for the form of its instruction, a bad value is one that an operand stands for, and no
execution ends with the exit codes of malformed instructions and of internal faults. -/
theorem assembled_program_sound {text : Text} {records : List Instruction}
    (assembled : assemble text = .ok records) :
    (∀ error, Program.build records = .error error →
      ∃ name place, error = .duplicateLabel name place) ∧
    ∀ program, Program.build records = .ok program →
      (∀ instruction ∈ program.instructions, ∀ operand ∈ instruction.operands,
        operand.Usable) ∧
      ∀ machine : Machine,
        (ShortTexts program machine → ∀ (place : Nat) (fault : Fault),
          (machine.step program).ending = some (.failed ⟨place, fault⟩) →
            ¬ fault.Malformed ∧
            ∀ reason, fault = .operandValue reason → AboutValue program machine reason) ∧
        ((∀ passed, Passes program machine passed → ShortTexts program passed) →
          ∀ (fuel : Nat) (execution : Execution),
            machine.execution? fuel program = some execution →
              execution.ending.exitCode? ≠ some 32 ∧ execution.ending.exitCode? ≠ some 99) := by
  obtain ⟨keyed, proper⟩ := keyed_and_proper_of_assemble assembled
  refine ⟨fun error => duplicateLabel_of_build keyed proper, ?_⟩
  intro program built
  have same : program.instructions = records :=
    (Program.build_eq_ok built).1.trans keyed.sorted_eq
  rw [← same] at proper
  refine ⟨?_, fun machine => ⟨?_, ?_⟩⟩
  · intro instruction member operand among
    obtain ⟨opcode, _, fits⟩ := proper instruction member
    exact (fits.writable operand among).usable
  · exact fun short place fault => sound_of_step proper short
  · exact fun short fuel execution => exitCode?_of_execution proper short

/-- A source text that adds a truth value to a number. -/
def mistypedSum : Text := ".ippcode24 # sum\nDEFVAR GF@x\nadd GF@x int@1 bool@true\n".toList

/-- The addition fails for the kind of its third operand's value. -/
theorem mistypedSum_fails_for_value :
    ∃ records program machine, assemble mistypedSum = .ok records ∧
      Program.build records = .ok program ∧ ShortTexts program machine ∧
      (machine.step program).ending =
        some (.failed ⟨1, .operandValue (.wrongKind .int .bool)⟩) ∧
      AboutValue program machine (.wrongKind .int .bool) := by
  let records : List Instruction :=
    [⟨1, "DEFVAR".toList, [⟨.var, "GF@x".toList⟩]⟩,
      ⟨2, "ADD".toList, [⟨.var, "GF@x".toList⟩, ⟨.literal .int, ['1']⟩,
        ⟨.literal .bool, "true".toList⟩]⟩]
  let program : Program := ⟨records, []⟩
  let machine : Machine :=
    ⟨⟨[(['x'], .uninitialized)], none, []⟩, [], 1, 1, ⟨[]⟩, .unbounded⟩
  have assembled : assemble mistypedSum = .ok records := by decide +kernel
  have built : Program.build records = .ok program := by decide +kernel
  have short : ShortTexts program machine := by
    refine ⟨by decide +kernel, ?_⟩
    rintro ⟨tag, name⟩ text found
    cases tag with
    | gf =>
      cases same : name == ['x'] <;>
        simp [machine, Frames.get, Frames.frame?, Frame.get?, List.lookup_cons, same] at found
    | tf | lf => cases found
  have ended : (machine.step program).ending =
      some (.failed ⟨1, .operandValue (.wrongKind .int .bool)⟩) := by decide +kernel
  obtain ⟨_, runs⟩ := assembled_program_sound assembled
  obtain ⟨_, sound⟩ := runs program built
  obtain ⟨_, about⟩ := (sound machine).1 short _ _ ended
  exact ⟨records, program, machine, assembled, built, short, ended, about _ rfl⟩

end IPPcode24
