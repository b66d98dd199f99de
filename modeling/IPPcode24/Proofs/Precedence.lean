import IPPcode24.Proofs.ValueVerdicts
import Mathlib.Data.List.Forall2

/-!
# Precedence of faults

A step that does not crash fails with the first fault that the verdicts on its instruction
find, and succeeds when they find none.
-/

namespace IPPcode24

/-! ## Effects -/

section Effects

variable {machine : Machine} {action : Action} {labels : LabelTable} {operands : List Operand}
variable {values : List Value} {outcome : Outcome}

/-- What is left of an instruction when its outcome is known: to aim it and to perform it. -/
def Machine.finish (machine : Machine) (labels : LabelTable) (operands : List Operand)
    (outcome : Outcome) : Attempt Flow := do
  let effect ← outcome.effect labels operands
  (machine.perform effect).flow

theorem predicts_define (first : Operand) :
    Predicts [variableVerdict machine.frames first (targetVerdict .define)]
      (first.reference >>= fun ref => (machine.perform (.define ref)).flow) := by
  refine predicts_variable (fun ref absent => ?_) (fun ref frame present => ?_)
  · simp only [Machine.perform, Frames.define, absent]
    exact .of_fail _
  · simp only [Machine.perform, Frames.define, present]
    cases frame.get? ref.name with
    | none => exact (Predicts.of_ok _).skip rfl
    | some value => exact .of_fail _

theorem predicts_set (other : action ≠ .define) (first : Operand) (value : Value) :
    Predicts [variableVerdict machine.frames first (targetVerdict action)]
      (first.reference >>= fun ref =>
        (machine.withFrames (machine.frames.set ref value) fun _ => []).flow) := by
  refine predicts_variable (fun ref absent => ?_) (fun ref frame present => ?_)
  · simp only [Frames.set, absent]
    exact .of_fail _
  · simp only [Frames.set, present]
    cases frame.get? ref.name with
    | none =>
      rw [targetVerdict, if_neg other]
      exact .of_fail _
    | some value =>
      rw [targetVerdict, if_neg other]
      exact (Predicts.of_ok _).skip rfl

/-- The actions whose outcome is assigned to a variable. -/
def Action.Assigns : Action → Prop
  | move | arithmetic _ | relation _ | connective _ | negation | intToChar | charToInt | concat
  | length | getChar | setChar | typeOf | intToFloat | floatToInt => True
  | _ => False

theorem exists_assign_of_outcome (assigns : action.Assigns) (shape : values.length = action.arity) :
    Gives (fun outcome => ∃ value, outcome = .assign value) (action.outcome values) := by
  cases action with
  | move | typeOf =>
    obtain ⟨value, rfl⟩ := List.length_eq_one_iff.mp shape
    exact .ok ⟨_, rfl⟩
  | negation | intToFloat =>
    obtain ⟨value, rfl⟩ := List.length_eq_one_iff.mp shape
    exact .bind fun _ _ => .ok ⟨_, rfl⟩
  | intToChar | length | floatToInt =>
    obtain ⟨value, rfl⟩ := List.length_eq_one_iff.mp shape
    exact .bind fun _ _ => .bind fun _ _ => .ok ⟨_, rfl⟩
  | relation _ | charToInt | getChar =>
    obtain ⟨left, right, rfl⟩ := List.length_eq_two.mp shape
    exact .bind fun _ _ => .ok ⟨_, rfl⟩
  | connective _ | concat =>
    obtain ⟨left, right, rfl⟩ := List.length_eq_two.mp shape
    exact .bind fun _ _ => .bind fun _ _ => .ok ⟨_, rfl⟩
  | arithmetic _ =>
    obtain ⟨left, right, rfl⟩ := List.length_eq_two.mp shape
    exact .bind fun _ _ => .bind fun _ _ => .bind fun _ _ => .ok ⟨_, rfl⟩
  | setChar =>
    obtain ⟨current, index, replacement, rfl⟩ := List.length_eq_three.mp shape
    exact .bind fun _ _ => .bind fun _ _ => .bind fun _ _ => .bind fun _ _ => .ok ⟨_, rfl⟩
  | _ => exact assigns.elim

theorem predicts_finish_assign (assigns : action.Assigns)
    (enough : action.signature.length ≤ operands.length) (value : Value) :
    Predicts [machine.stackVerdict action, destinationVerdict action machine.frames operands,
      machine.sinkVerdict action values] (machine.finish labels operands (.assign value)) := by
  have slots : ∃ slots, action.signature = .var :: slots := by
    cases action <;> first | exact ⟨_, rfl⟩ | exact assigns.elim
  have other : action ≠ .define := by
    rintro rfl
    exact assigns
  have stack : machine.stackVerdict action = none := by
    cases action <;> first | rfl | exact assigns.elim
  have sink : machine.sinkVerdict action values = none := by
    cases action <;> first | rfl | exact assigns.elim
  obtain ⟨slots, same⟩ := slots
  obtain ⟨first, rest, rfl⟩ : ∃ first rest, operands = first :: rest := by
    rw [same, List.length_cons] at enough
    exact exists_of_one_le (Nat.le_trans (Nat.le_add_left 1 _) enough)
  have destination : destinationVerdict action machine.frames (first :: rest) =
      variableVerdict machine.frames first (targetVerdict action) := by
    simp only [destinationVerdict, same]
  have chain : machine.finish labels (first :: rest) (.assign value) =
      first.reference >>= fun ref =>
        (machine.withFrames (machine.frames.set ref value) fun _ => []).flow := by
    simp only [Machine.finish, Outcome.effect, assignFirst, operandAt_zero, Chain.bind_ok,
      bind_assoc, Chain.pure_eq_ok, Machine.perform]
  rw [stack, sink, destination, chain]
  exact ((predicts_set other first value).pad (List.forall_mem_singleton.mpr rfl)).skip rfl

/-- READ looks at its destination after it has read a line, and unless the line crashes. -/
theorem predicts_readInto (target : Operand) (kind : Kind) :
    Predicts [variableVerdict machine.frames target (targetVerdict .read)]
      (machine.readInto target kind).flow := by
  cases given : machine.input.read kind with
  | mk answer input =>
    cases answer with
    | error crash =>
      simp only [Machine.readInto, given]
      exact .of_crash crash
    | ok value? =>
      have chain : (machine.readInto target kind).flow = target.reference >>= fun ref =>
          (machine.withFrames (machine.frames.set ref (value?.getD .nil)) fun _ => []).flow := by
        simp only [Machine.readInto, given]
        cases target.reference with
        | error failure => rfl
        | ok ref =>
          simp only [Chain.bind_ok]
          cases machine.frames.set ref (value?.getD .nil) <;> rfl
      have other : Action.read ≠ .define := by decide
      rw [chain]
      exact predicts_set other target _

/-- What is left of an instruction fails with what is wrong with the stacks, the destination or
the sink. -/
theorem predicts_finish (enough : action.signature.length ≤ operands.length)
    (labelled : action.requireLabel labels operands = .ok ())
    (shape : values.length = action.arity) (given : action.outcome values = .ok outcome) :
    Predicts [machine.stackVerdict action, destinationVerdict action machine.frames operands,
      machine.sinkVerdict action values] (machine.finish labels operands outcome) := by
  have nothing : ∀ verdict ∈ [(none : Verdict)], verdict = none := List.forall_mem_singleton.mpr rfl
  have nothings : ∀ verdict ∈ [(none : Verdict), none], verdict = none := by simp
  cases action with
  | createFrame | inspect | pass =>
    cases given
    exact (Predicts.of_ok _).pad nothings |>.skip rfl
  | pushFrame =>
    cases given
    refine Predicts.alone ?_ nothings
    simp only [Machine.finish, Outcome.effect, Machine.stackVerdict, Machine.perform, Frames.push,
      Chain.pure_eq_ok, Chain.bind_ok]
    cases machine.frames.temporary with
    | none => exact .of_fail _
    | some frame => exact (Predicts.of_ok _).skip rfl
  | popFrame =>
    cases given
    refine Predicts.alone ?_ nothings
    simp only [Machine.finish, Outcome.effect, Machine.stackVerdict, Machine.perform, Frames.pop,
      Chain.pure_eq_ok, Chain.bind_ok]
    cases machine.frames.locals with
    | nil => exact .of_fail _
    | cons frame rest => exact (Predicts.of_ok _).skip rfl
  | ret =>
    cases given
    refine Predicts.alone ?_ nothings
    simp only [Machine.finish, Outcome.effect, Machine.stackVerdict, Machine.perform,
      Chain.pure_eq_ok, Chain.bind_ok]
    cases machine.calls with
    | nil => exact .of_fail _
    | cons place rest => exact (Predicts.of_ok _).skip rfl
  | define =>
    cases given
    obtain ⟨first, rest, rfl⟩ := exists_of_one_le enough
    have chain : machine.finish labels (first :: rest) .define =
        first.reference >>= fun ref => (machine.perform (.define ref)).flow := by
      simp only [Machine.finish, Outcome.effect, operandAt_zero, Chain.bind_ok, bind_assoc,
        Chain.pure_eq_ok]
    rw [chain]
    exact (predicts_define first).pad nothing |>.skip rfl
  | read =>
    obtain ⟨name, rfl⟩ := List.length_eq_one_iff.mp shape
    obtain ⟨kind, _, given⟩ := Chain.bind_eq_ok.mp given
    cases given
    obtain ⟨target, type, rest, rfl⟩ := exists_of_two_le enough
    exact (predicts_readInto target kind).pad nothing |>.skip rfl
  | write =>
    obtain ⟨value, rfl⟩ := List.length_eq_one_iff.mp shape
    simp only [Action.outcome, onOne] at given
    split at given
    · cases given
    · cases given
      refine Predicts.skip (Predicts.skip ?_ rfl) rfl
      simp only [Machine.finish, Outcome.effect, Machine.sinkVerdict, Machine.perform,
        Output.write, Chain.pure_eq_ok, Chain.bind_ok]
      cases machine.output.sink.refusal? machine.output.past value.written with
      | some refusal => exact .of_fail _
      | none => exact (Predicts.of_ok _).skip rfl
  | jump | call =>
    cases given
    obtain ⟨first, rest, rfl⟩ := exists_of_one_le enough
    obtain ⟨place, found, _⟩ := Chain.bind_eq_ok.mp labelled
    simp only [Machine.finish, Outcome.effect, operandAt_zero, found, Chain.pure_eq_ok,
      Chain.bind_ok]
    exact (Predicts.of_ok _).pad nothings |>.skip rfl
  | jumpIf equal =>
    obtain ⟨left, right, rfl⟩ := List.length_eq_two.mp shape
    obtain ⟨first, second, third, rest, rfl⟩ := exists_of_three_le enough
    obtain ⟨place, found, _⟩ := Chain.bind_eq_ok.mp labelled
    obtain ⟨result, _, given⟩ := Chain.bind_eq_ok.mp given
    cases given
    split
    · simp only [Machine.finish, Outcome.effect, operandAt_zero, found, Chain.pure_eq_ok,
        Chain.bind_ok]
      exact (Predicts.of_ok _).pad nothings |>.skip rfl
    · exact (Predicts.of_ok _).pad nothings |>.skip rfl
  | exit =>
    obtain ⟨value, rfl⟩ := List.length_eq_one_iff.mp shape
    obtain ⟨code, _, given⟩ := Chain.bind_eq_ok.mp given
    obtain ⟨effect, exits, given⟩ := Chain.bind_eq_ok.mp given
    cases given
    rw [exitWith] at exits
    split at exits
    · cases exits
      exact (Predicts.of_ok _).pad nothings |>.skip rfl
    · cases exits
  | print =>
    cases given
    obtain ⟨first, rest, rfl⟩ := exists_of_one_le enough
    exact (Predicts.of_ok _).pad nothings |>.skip rfl
  | move | arithmetic _ | relation _ | connective _ | negation | intToChar | charToInt | concat
  | length | getChar | setChar | typeOf | intToFloat | floatToInt =>
    obtain ⟨value, rfl⟩ := exists_assign_of_outcome (by trivial) shape outcome given
    exact predicts_finish_assign (by trivial) enough value

end Effects

/-! ## Steps -/

section Found

variable {α β : Type} {attempt : α → Attempt β} {elements : List α} {results : List β}

theorem forall₂_of_mapM_eq_ok (succeeded : elements.mapM attempt = .ok results) :
    List.Forall₂ (fun element result => attempt element = .ok result) elements results := by
  induction elements generalizing results with
  | nil =>
    rw [List.mapM_nil, Chain.pure_eq_ok, Except.ok.injEq] at succeeded
    rw [← succeeded]
    exact .nil
  | cons element rest ih =>
    simp only [List.mapM_cons, Chain.bind_eq_ok, Chain.pure_eq_ok, Except.ok.injEq] at succeeded
    obtain ⟨first, hfirst, others, hothers, rfl⟩ := succeeded
    exact .cons hfirst (ih hothers)

theorem mapM_toOption_of_forall₂
    (found : List.Forall₂ (fun element result => attempt element = .ok result) elements results) :
    elements.mapM (fun element => (attempt element).toOption) = some results := by
  induction found with
  | nil => rfl
  | cons given _ ih =>
    rw [List.mapM_cons, given, ih]
    rfl

end Found

theorem zipWith_bind_of_forall₂ {lookUp : Operand → Attempt Value} {arguments : List Operand}
    {values : List Value}
    (found : List.Forall₂ (fun operand value => lookUp operand = .ok value) arguments values)
    (requirements : List Requirement) :
    List.zipWith (fun required operand => (lookUp operand).toOption.bind required.verdict)
      requirements arguments = List.zipWith Requirement.verdict requirements values := by
  induction found generalizing requirements with
  | nil => rw [List.zipWith_nil_right, List.zipWith_nil_right]
  | cons given _ ih =>
    cases requirements with
    | nil => rfl
    | cons required requirements =>
      rw [List.zipWith_cons_cons, List.zipWith_cons_cons, given, ih]
      rfl

section Steps

variable {program : Program} {machine : Machine} {instruction : Instruction} {opcode : Opcode}
variable {labels : LabelTable}

theorem execute_flow (machine : Machine) (labels : LabelTable) (opcode : Opcode)
    (operands : List Operand) :
    (machine.execute labels opcode operands).flow =
      opcode.plan labels machine.frames operands >>= fun effect =>
        (machine.perform effect).flow := by
  rw [Machine.execute]
  cases opcode.plan labels machine.frames operands <;> rfl

/-- The checks of an instruction in the order in which it makes them. -/
theorem predicts_execute (known : instruction.opcode? = some opcode) :
    Predicts (machine.verdicts labels instruction)
      (machine.execute labels opcode instruction.operands).flow := by
  -- the chain is followed link by link, and each link has the next verdicts of the list
  rw [execute_flow, Opcode.plan, bind_assoc]
  simp only [Machine.verdicts, known, List.append_assoc]
  refine (predicts_checkOperands opcode instruction.operands).bind fun _ checked => ?_
  obtain ⟨enough, accepted⟩ := checkOperands_eq_ok.mp (orError_eq_ok.mp checked)
  rw [opcode.signature_eq] at enough accepted
  have staged : (opcode.action.plan labels machine.frames opcode.symbolOrder instruction.operands
      >>= fun effect => (machine.perform effect).flow) =
      (opcode.action.requireLabel labels instruction.operands >>= fun _ =>
        opcode.action.requireSymbol opcode.symbolOrder instruction.operands) >>= fun _ =>
      (opcode.action.arguments opcode.symbolOrder instruction.operands).mapM
        (opcode.action.lookUp machine.frames) >>= fun values =>
      opcode.action.outcome values >>= machine.finish labels instruction.operands := by
    rw [Action.plan_eq_staged enough]
    simp only [Action.staged, bind_assoc]
    rfl
  rw [staged]
  refine predicts_requirements.bind fun _ required => ?_
  obtain ⟨_, labelled, symbol⟩ := Chain.bind_eq_ok.mp required
  refine Predicts.bind (.mapM fun operand argument => predicts_lookUp ?_ ?_) fun values looked => ?_
  · exact fun notRead => Action.isSymbol_of_mem_arguments notRead accepted symbol argument
  · intro reads
    rw [reads] at accepted argument
    exact Action.isType_of_mem_arguments accepted argument
  have found := forall₂_of_mapM_eq_ok looked
  have shape : values.length = opcode.action.arity := by
    rw [← found.length_eq, Action.length_arguments enough]
  rw [mapM_toOption_of_forall₂ found, zipWith_bind_of_forall₂ found, List.append_cons]
  refine (Action.predicts_outcome shape).bind fun outcome given => ?_
  exact predicts_finish enough labelled shape given

/-- A machine gets through its next instruction when the run goes on or the program exits. -/
def Machine.GetsThrough (program : Program) (machine : Machine) : Prop :=
  (machine.step program).ending = none ∨
    ∃ code, (machine.step program).ending = some (.halted (.exit code))

theorem Flow.settle_ending (machine : Machine) (flow : Flow) :
    (flow.settle machine).2 = none ∨
      ∃ code, (flow.settle machine).2 = some (.halted (.exit code)) := by
  cases flow with
  | next | jump place => exact .inl rfl
  | exit code => exact .inr ⟨code, rfl⟩

/-- An instruction with a known opcode that does not crash comes out as its verdicts say. -/
theorem judged_of_dispatches (dispatched : Dispatches program machine instruction opcode)
    (calm : ∀ crash, (machine.step program).ending ≠ some (.crashed crash)) :
    (machine.GetsThrough program ∧
        earliest (machine.verdicts program.labels instruction) = none) ∨
      ∃ fault, (machine.step program).ending = some (.failed ⟨machine.pc, fault⟩) ∧
        earliest (machine.verdicts program.labels instruction) = some fault := by
  have predicts : Predicts (machine.counted.verdicts program.labels instruction)
      (machine.counted.execute program.labels opcode instruction.operands).flow :=
    predicts_execute dispatched.known
  have place : (machine.counted.execute program.labels opcode
      instruction.operands).machine.pc = machine.pc := by
    rw [Machine.execute]
    split
    · exact perform_pc _
    · rfl
  have ended := ending_of_dispatches dispatched
  cases executed : (machine.counted.execute program.labels opcode
      instruction.operands).flow with
  | ok flow =>
    refine .inl ⟨?_, predicts.ok flow executed⟩
    rw [Machine.GetsThrough, ended, (Performed.settle_of_ok executed).2]
    exact flow.settle_ending _
  | error failure =>
    rw [(Performed.settle_of_error executed).2, place] at ended
    cases failure with
    | error fault => exact .inr ⟨fault, ended, predicts.error fault executed⟩
    | crash crash => exact absurd ended (calm crash)

theorem judged_of_step (fetched : program.instructions[machine.pc]? = some instruction)
    (calm : ∀ crash, (machine.step program).ending ≠ some (.crashed crash)) :
    (machine.GetsThrough program ∧
        earliest (machine.verdicts program.labels instruction) = none) ∨
      ∃ fault, (machine.step program).ending = some (.failed ⟨machine.pc, fault⟩) ∧
        earliest (machine.verdicts program.labels instruction) = some fault := by
  cases known : instruction.opcode? with
  | some opcode => exact judged_of_dispatches ⟨fetched, known⟩ calm
  | none =>
    refine .inr ⟨.unknownOpcode instruction.mnemonic, ?_, ?_⟩
    · simp only [Machine.step, fetched, known]
    · simp only [Machine.verdicts, known]
      rfl

end Steps

/-! ## Exit codes -/

section Codes

variable {action : Action} {frames : Frames} {operand : Operand} {operands : List Operand}
variable {fault : Fault} {place : Nat} {judge : Variable → Option Value → Verdict}

theorem variableVerdict_eq_some
    (found : variableVerdict frames operand judge = some fault) :
    fault = .operandValue (.notVariable operand.text) ∨ (∃ tag, fault = .frameUndefined tag) ∨
      ∃ ref content, judge ref content = some fault := by
  rw [variableVerdict] at found
  split at found
  · exact .inl (Option.some.inj found).symm
  · split at found
    · exact .inr (.inl ⟨_, (Option.some.inj found).symm⟩)
    · exact .inr (.inr ⟨_, _, found⟩)

theorem exitCode_of_resolution (found : resolutionVerdict action frames operand = some fault) :
    RunError.exitCode ⟨place, fault⟩ ∈ [53, 55, 54] ∨
      RunError.exitCode ⟨place, fault⟩ = 56 ∧ action ≠ .typeOf := by
  rw [resolutionVerdict] at found
  split at found
  · rcases variableVerdict_eq_some found with rfl | ⟨tag, rfl⟩ | ⟨ref, content, judged⟩
    · exact .inl (by simp [RunError.exitCode])
    · exact .inl (by simp [RunError.exitCode])
    · unfold contentVerdict at judged
      split at judged
      · cases judged
        exact .inl (by simp [RunError.exitCode])
      · split at judged
        · next missing =>
          cases judged
          exact .inr ⟨rfl, missing.2⟩
        · cases judged
  · split at found
    · cases found
    · cases found
      exact .inl (by simp [RunError.exitCode])
  · cases found
  · cases found

theorem exitCode_of_destination
    (found : destinationVerdict action frames operands = some fault) :
    RunError.exitCode ⟨place, fault⟩ ∈ [53, 55] ∨
      RunError.exitCode ⟨place, fault⟩ = if action = .define then 52 else 54 := by
  unfold destinationVerdict at found
  split at found
  · rcases variableVerdict_eq_some found with rfl | ⟨tag, rfl⟩ | ⟨ref, content, judged⟩
    · exact .inl (by simp [RunError.exitCode])
    · exact .inl (by simp [RunError.exitCode])
    · unfold targetVerdict at judged
      split at judged
      · split at judged
        · next defines =>
          cases judged
          rw [if_pos defines]
          exact .inr rfl
        · cases judged
      · split at judged
        · cases judged
        · next other =>
          cases judged
          rw [if_neg other]
          exact .inr rfl
  · cases found

end Codes

section Precedence

variable {program : Program} {machine : Machine} {instruction : Instruction}

/-- A step that does not crash gets through its instruction exactly when no check finds a fault,
and otherwise fails with the first fault that is found. -/
theorem step_reports_earliest_fault
    (fetched : program.instructions[machine.pc]? = some instruction)
    (calm : ∀ crash, (machine.step program).ending ≠ some (.crashed crash)) :
    (machine.GetsThrough program ↔
        ∀ verdict ∈ machine.verdicts program.labels instruction, verdict = none) ∧
      (∀ error, (machine.step program).ending = some (.failed error) ↔
        error.place = machine.pc ∧
          earliest (machine.verdicts program.labels instruction) = some error.fault) ∧
      (∀ action operand fault, resolutionVerdict action machine.frames operand = some fault →
        RunError.exitCode ⟨machine.pc, fault⟩ ∈ [53, 55, 54] ∨
          RunError.exitCode ⟨machine.pc, fault⟩ = 56 ∧ action ≠ .typeOf) ∧
      ∀ action operands fault, destinationVerdict action machine.frames operands = some fault →
        RunError.exitCode ⟨machine.pc, fault⟩ ∈ [53, 55] ∨
          RunError.exitCode ⟨machine.pc, fault⟩ = if action = .define then 52 else 54 := by
  refine ⟨?_, ?_, fun _ _ _ => exitCode_of_resolution, fun _ _ _ => exitCode_of_destination⟩
  · rw [← earliest_eq_none_iff]
    rcases judged_of_step fetched calm with ⟨through, nothing⟩ | ⟨fault, failed, first⟩
    · exact iff_of_true through nothing
    · refine iff_of_false ?_ (by rw [first]; exact nofun)
      rw [Machine.GetsThrough, failed]
      rintro (⟨⟨⟩⟩ | ⟨code, ⟨⟩⟩)
  · intro error
    rcases judged_of_step fetched calm with ⟨through, nothing⟩ | ⟨fault, failed, first⟩
    · refine iff_of_false ?_ (by rw [nothing]; exact fun both => nomatch both.2)
      intro failed
      rw [Machine.GetsThrough, failed] at through
      rcases through with ⟨⟨⟩⟩ | ⟨code, ⟨⟩⟩
    · rw [failed, first, Option.some.injEq, Ending.failed.injEq, Option.some.injEq]
      constructor
      · rintro rfl
        exact ⟨rfl, rfl⟩
      · rintro ⟨samePlace, sameFault⟩
        rw [← samePlace, sameFault]

end Precedence

/-- An instruction that divides a truth value by zero into a local variable. -/
def faultyDivision : Instruction :=
  ⟨1, "IDIVS".toList, [⟨.var, "LF@x".toList⟩, ⟨.literal .int, ['0']⟩,
    ⟨.literal .bool, "true".toList⟩]⟩

def holdsNothing : Machine := ⟨⟨[(['x'], .uninitialized)], none, []⟩, [], 0, 0, ⟨[]⟩, .unbounded⟩

/-- The kind of the dividend comes before the division by zero and before the frame that the
destination does not have. -/
theorem dividend_is_reported_first :
    (holdsNothing.step ⟨[faultyDivision], []⟩).ending =
        some (.failed ⟨0, .operandValue (.wrongKind .int .bool)⟩) ∧
      some .divisionByZero ∈ holdsNothing.verdicts [] faultyDivision ∧
      some (.frameUndefined .lf) ∈ holdsNothing.verdicts [] faultyDivision := by
  let program : Program := ⟨[faultyDivision], []⟩
  have fetched : program.instructions[holdsNothing.pc]? = some faultyDivision := rfl
  have calm (crash : Crash) : (holdsNothing.step program).ending ≠ some (.crashed crash) := by
    cases crash <;> decide +kernel
  obtain ⟨_, failed, _⟩ := step_reports_earliest_fault fetched calm
  exact ⟨(failed _).mpr ⟨rfl, by decide +kernel⟩, by decide +kernel, by decide +kernel⟩

/-- An instruction that negates its last symbol, behind one whose variable is not declared. -/
def lastNegation : Instruction :=
  ⟨1, "NOTS".toList, [⟨.var, "GF@x".toList⟩, ⟨.var, "GF@y".toList⟩,
    ⟨.literal .bool, "true".toList⟩]⟩

def undeclaredPrint : Instruction := ⟨1, "DPRINT".toList, [⟨.var, "GF@y".toList⟩]⟩

/-- NOTS gets through when a symbol operand before its last one does not resolve, and DPRINT
when its only one does not. -/
theorem unused_symbols_need_not_resolve :
    Opcode.nots.signature = [.var, .symbol] ∧ Opcode.dprint.signature = [.symbol] ∧
      lastNegation.operands[1]? = undeclaredPrint.operands[0]? ∧
      (∀ action, undeclaredPrint.operands.map (resolutionVerdict action holdsNothing.frames) =
        [some (.variableUndefined ⟨.gf, ['y']⟩)]) ∧
      holdsNothing.GetsThrough ⟨[lastNegation], []⟩ ∧
      holdsNothing.GetsThrough ⟨[undeclaredPrint], []⟩ := by
  refine ⟨rfl, rfl, rfl, ?_, .inl (by decide +kernel), .inl (by decide +kernel)⟩
  intro action
  rfl

end IPPcode24
