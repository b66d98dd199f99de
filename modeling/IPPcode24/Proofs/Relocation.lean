import IPPcode24.Proofs.Programs
import IPPcode24.Proofs.Moments

/-!
# Relocation

The instructions of a program may stand at other places in another program. A map from the
places of the one to those of the other takes a machine along: its place, the places to
return to, and with them its events and its errors. Where the other program has the same
instruction at the place that the map gives, names its labels by the map, and goes on to the
mapped place, a step of the relocated machine is the relocated step.
-/

namespace IPPcode24

/-! ## Relocated machines -/

section Definitions

variable (place : Nat → Nat)

def Effect.relocated : Effect → Effect
  | jump target => .jump (place target)
  | call target => .call (place target)
  | effect => effect

def Flow.relocated : Flow → Flow
  | jump target => .jump (place target)
  | flow => flow

def RunError.relocated (error : RunError) : RunError :=
  { error with place := place error.place }

def Ending.relocated : Ending → Ending
  | failed error => .failed (error.relocated place)
  | ending => ending

def Event.relocated : Event → Event
  | dispatched origin opcode => .dispatched (place origin) opcode
  | frameCreated origin => .frameCreated (place origin)
  | framePushed origin depth => .framePushed (place origin) depth
  | framePopped origin depth => .framePopped (place origin) depth
  | called origin target depth => .called (place origin) (place target) depth
  | returned origin target depth => .returned (place origin) (place target) depth
  | printed origin operand => .printed (place origin) operand
  | inspected origin steps globals temporary locals calls =>
    .inspected (place origin) steps globals temporary locals calls
  | aborted error steps => .aborted (error.relocated place) steps
  | event => event

/-- The machine at the mapped place, with the mapped places to return to. -/
def Machine.relocated (machine : Machine) : Machine :=
  { machine with pc := place machine.pc, calls := machine.calls.map place }

def Performed.relocated (performed : Performed) : Performed where
  machine := performed.machine.relocated place
  events := performed.events.map (Event.relocated place)
  flow := performed.flow.map (Flow.relocated place)

def Stepped.relocated (stepped : Stepped) : Stepped where
  machine := stepped.machine.relocated place
  events := stepped.events.map (Event.relocated place)
  ending := stepped.ending.map (Ending.relocated place)

def Run.relocated (run : Run) : Run where
  machine := run.machine.relocated place
  log := run.log.map (Event.relocated place)
  ending := run.ending.map (Ending.relocated place)

def Execution.relocated (execution : Execution) : Execution where
  machine := execution.machine.relocated place
  ending := execution.ending.relocated place
  log := execution.log.map (Event.relocated place)

end Definitions

/-- The opcodes after which the next instruction is never executed. -/
def Opcode.leaving : List Opcode := [.jump, .ret, .exit]

/-- The labels of the other program are those of the program at the mapped places. -/
def SameLabels (program other : Program) (place : Nat → Nat) : Prop :=
  ∀ name, other.labels.resolve? name = (program.labels.resolve? name).map place

/-- The other program has the instruction at the mapped place, and the next one follows there
unless it is never executed after that instruction. -/
structure SameAt (program other : Program) (place : Nat → Nat) (index : Nat) : Prop where
  instruction : other.instructions[place index]? = program.instructions[index]?
  next : ∀ opcode, program.opcodeAt? index = some opcode → opcode ∉ Opcode.leaving →
    place (index + 1) = place index + 1

/-! ## Labels -/

/-- Exact tables name the same labels when the label instructions stand at the mapped places
and the other program has no others. -/
theorem sameLabels_of_exact {program other : Program} {place : Nat → Nat}
    (exact : program.labels.Exact program.instructions)
    (exactOther : other.labels.Exact other.instructions)
    (found : ∀ index instruction, program.instructions[index]? = some instruction →
      instruction.isLabel = true → other.instructions[place index]? = some instruction)
    (included : ∀ instruction ∈ other.instructions, instruction ∈ program.instructions) :
    SameLabels program other place := by
  intro name
  cases resolved : program.labels.resolve? name with
  | some index =>
    obtain ⟨instruction, fetched, declares⟩ := (exact.resolves name index).mp resolved
    rw [Option.map_some, exactOther.resolves]
    exact ⟨instruction, found index instruction fetched declares.isLabel, declares⟩
  | none =>
    rw [Option.map_none, Option.eq_none_iff_forall_ne_some]
    intro index resolvedToo
    obtain ⟨instruction, fetched, declares⟩ := (exactOther.resolves name index).mp resolvedToo
    have member := included instruction (List.mem_of_getElem? fetched)
    obtain ⟨origin, fetched⟩ := List.mem_iff_getElem?.mp member
    rw [(exact.resolves name origin).mpr ⟨instruction, fetched, declares⟩] at resolved
    cases resolved

/-! ## Plans -/

section Plans

variable {program other : Program} {place : Nat → Nat} {frames : Frames}
  {operands : List Operand}

theorem target_relocated (labels : SameLabels program other place) (operand : Operand) :
    other.labels.target operand = (program.labels.target operand).map place := by
  rw [LabelTable.target, LabelTable.target, labels]
  cases program.labels.resolve? operand.text <;> rfl

theorem requireLabel_relocated (labels : SameLabels program other place) (action : Action) :
    action.requireLabel other.labels operands = action.requireLabel program.labels operands := by
  cases operands with
  | nil => rfl
  | cons operand rest =>
    rw [Action.requireLabel, Action.requireLabel, target_relocated labels]
    split
    · cases program.labels.target operand <;> rfl
    · rfl

/-- An effect that an action has by itself goes nowhere. -/
theorem Effect.Alone.relocated {action : Action} {effect : Effect} (alone : effect.Alone action) :
    effect.relocated place = effect := by
  cases effect with
  | jump target => cases alone
  | call target => cases alone
  | _ => rfl

theorem effect_relocated (labels : SameLabels program other place) {action : Action}
    {outcome : Outcome} (own : outcome.Of action) :
    outcome.effect other.labels operands =
      (outcome.effect program.labels operands).map (Effect.relocated place) := by
  cases outcome with
  | alone effect => exact congrArg Except.ok (Effect.Alone.relocated own).symm
  | define | assign _ =>
    cases operands with
    | nil => rfl
    | cons target rest =>
      simp only [Outcome.effect, assignFirst, operandAt_zero, Chain.bind_ok]
      cases target.reference <;> rfl
  | read _ | print => cases operands <;> rfl
  | jump | call =>
    cases operands with
    | nil => rfl
    | cons label rest =>
      simp only [Outcome.effect, operandAt_zero, Chain.bind_ok, target_relocated labels]
      cases program.labels.target label <;> rfl

/-- The plan of an instruction leads to the mapped place, or fails for the same reason. -/
theorem plan_relocated (labels : SameLabels program other place) (opcode : Opcode) :
    opcode.plan other.labels frames operands =
      (opcode.plan program.labels frames operands).map (Effect.relocated place) := by
  rw [Opcode.plan, Opcode.plan]
  cases checked : checkOperands opcode operands with
  | error fault => rfl
  | ok _ =>
    have enough := (checkOperands_eq_ok.mp checked).1
    rw [opcode.signature_eq] at enough
    simp only [orError_ok, Chain.bind_ok, Action.plan_eq_staged enough, Action.staged,
      requireLabel_relocated labels]
    -- the stages before the last one are the same for both programs
    cases opcode.action.requireLabel program.labels operands with
    | error failure => rfl
    | ok _ =>
    cases opcode.action.requireSymbol opcode.symbolOrder operands with
    | error failure => rfl
    | ok _ =>
    cases (opcode.action.arguments opcode.symbolOrder operands).mapM
        (opcode.action.lookUp frames) with
    | error failure => rfl
    | ok values =>
    cases given : opcode.action.outcome values with
    | error failure => simp only [Chain.bind_ok, given]; rfl
    | ok outcome =>
      have own := opcode.action.outcome_gives values outcome given
      simp only [Chain.bind_ok, given]
      exact effect_relocated labels own

theorem effect_of_plan_exit {labels : LabelTable} {effect : Effect}
    (planned : Opcode.exit.plan labels frames operands = .ok effect) :
    ∃ code, effect = .exit code := by
  obtain ⟨_, _, planned⟩ := Chain.bind_eq_ok.mp planned
  obtain ⟨value, _, planned⟩ := Chain.bind_eq_ok.mp planned
  obtain ⟨code, _, planned⟩ := Chain.bind_eq_ok.mp planned
  rw [exitWith] at planned
  split at planned
  · cases planned
    exact ⟨_, rfl⟩
  · cases planned

theorem effect_of_plan_jump {labels : LabelTable} {effect : Effect}
    (planned : Opcode.jump.plan labels frames operands = .ok effect) :
    ∃ target, effect = .jump target := by
  obtain ⟨_, _, planned⟩ := Chain.bind_eq_ok.mp planned
  obtain ⟨_, _, planned⟩ := Chain.bind_eq_ok.mp planned
  obtain ⟨target, _, planned⟩ := Chain.bind_eq_ok.mp planned
  cases planned
  exact ⟨target, rfl⟩

/-- A leaving opcode never goes on to the next instruction. -/
theorem not_leaving_of_next {labels : LabelTable} {machine : Machine} {opcode : Opcode}
    {effect : Effect} (planned : opcode.plan labels frames operands = .ok effect)
    (performed : (machine.perform effect).flow = .ok .next) : opcode ∉ Opcode.leaving := by
  intro leaves
  simp only [Opcode.leaving, List.mem_cons, List.not_mem_nil, or_false] at leaves
  rcases leaves with rfl | rfl | rfl
  · obtain ⟨target, rfl⟩ := effect_of_plan_jump planned
    cases performed
  · rw [(plan_eq_ok_iff_of_bare .ret).mpr rfl] at planned
    cases planned
    simp only [Machine.perform] at performed
    split at performed <;> cases performed
  · obtain ⟨code, rfl⟩ := effect_of_plan_exit planned
    cases performed

end Plans

/-! ## Steps -/

section Steps

variable {program other : Program} {place : Nat → Nat} {machine : Machine}

theorem withFrames_relocated (machine : Machine) (result : Except FrameError Frames)
    {events eventsToo : Frames → List Event}
    (same : ∀ frames, eventsToo frames = (events frames).map (Event.relocated place)) :
    (machine.relocated place).withFrames result eventsToo =
      (machine.withFrames result events).relocated place := by
  cases result with
  | ok frames =>
    rw [Machine.withFrames, same]
    rfl
  | error error => rfl

theorem readInto_relocated (machine : Machine) (target : Operand) (kind : Kind) :
    (machine.relocated place).readInto target kind =
      (machine.readInto target kind).relocated place := by
  have sameInput : (machine.relocated place).input = machine.input := rfl
  simp only [Machine.readInto, sameInput]
  cases machine.input.read kind with
  | mk answer input =>
    cases answer with
    | error crash => rfl
    | ok value? =>
      cases target.reference with
      | error failure => rfl
      | ok ref => exact withFrames_relocated { machine with input } _ fun _ => rfl

/-- The relocated effect acts on the relocated machine as the effect does on the machine. A
call needs that the next instruction follows at the mapped place, since it returns there. -/
theorem perform_relocated {effect : Effect}
    (next : ∀ target, effect = .call target → place (machine.pc + 1) = place machine.pc + 1) :
    (machine.relocated place).perform (effect.relocated place) =
      (machine.perform effect).relocated place := by
  cases effect with
  | pass | jump _ | exit _ | print _ | inspect =>
    simp [Effect.relocated, Machine.perform, Performed.relocated, Machine.relocated,
      Event.relocated, Except.map, Flow.relocated, CallStack.depth]
  | createFrame => rfl
  | define _ | assign _ _ | pushFrame | popFrame =>
    exact withFrames_relocated machine _ fun _ => rfl
  | read target kind => exact readInto_relocated machine target kind
  | write text =>
    have sameOutput : (machine.relocated place).output = machine.output := rfl
    simp only [Effect.relocated, perform_write, sameOutput]
    cases (machine.output.write text).1 <;> rfl
  | call target =>
    have returns := next target rfl
    simp [Effect.relocated, Machine.perform, Performed.relocated, Machine.relocated,
      Event.relocated, Except.map, Flow.relocated, CallStack.push, CallStack.depth, returns]
  | ret =>
    have sameCalls : (machine.relocated place).calls = machine.calls.map place := rfl
    simp only [Effect.relocated, Machine.perform, sameCalls]
    cases opened : machine.calls with
    | nil => rfl
    | cons target rest =>
      simp [CallStack.pop?, CallStack.depth, Performed.relocated, Machine.relocated,
        Event.relocated, Except.map, Flow.relocated]

theorem settle_relocated {performed : Performed}
    (next : performed.flow = .ok .next →
      place (performed.machine.pc + 1) = place performed.machine.pc + 1) :
    (performed.relocated place).settle = performed.settle.relocated place := by
  obtain ⟨machine, events, flow⟩ := performed
  cases flow with
  | error failure => cases failure <;> rfl
  | ok flow =>
    cases flow with
    | next =>
      have follows : place (machine.pc + 1) = place machine.pc + 1 := next rfl
      simp [Performed.relocated, Performed.settle, Stepped.relocated, Machine.relocated,
        Except.map, Flow.relocated, follows]
    | jump target => rfl
    | exit code => rfl

/-- The relocated machine executes an instruction as the machine does. -/
theorem execute_relocated (machine : Machine) (labels : SameLabels program other place)
    {opcode : Opcode} {operands : List Operand}
    (next : opcode ∉ Opcode.leaving → place (machine.pc + 1) = place machine.pc + 1) :
    ((machine.relocated place).execute other.labels opcode operands).settle =
      (machine.execute program.labels opcode operands).settle.relocated place := by
  have sameFrames : (machine.relocated place).frames = machine.frames := rfl
  rw [Machine.execute, Machine.execute, sameFrames, plan_relocated labels]
  cases planned : opcode.plan program.labels machine.frames operands with
  | error failure =>
    have never : (Performed.mk machine [] (.error failure)).flow = .ok .next →
        place (machine.pc + 1) = place machine.pc + 1 := by
      intro performed
      cases performed
    exact settle_relocated never
  | ok effect =>
    have performs : (machine.relocated place).perform (effect.relocated place) =
        (machine.perform effect).relocated place := by
      refine perform_relocated ?_
      rintro target rfl
      obtain ⟨rfl, _⟩ := target_of_plan_call planned
      exact next (by decide)
    simp only [Except.map, performs]
    refine settle_relocated fun performed => ?_
    rw [perform_pc]
    exact next (not_leaving_of_next planned performed)

/-- A step of the relocated machine is the relocated step. -/
theorem step_relocated (labels : SameLabels program other place)
    (same : SameAt program other place machine.pc) :
    (machine.relocated place).step other = (machine.step program).relocated place := by
  have fetches : other.instructions[(machine.relocated place).pc]? =
      program.instructions[machine.pc]? := same.instruction
  cases fetched : program.instructions[machine.pc]? with
  | none =>
    rw [Machine.step, Machine.step, fetches, fetched]
    rfl
  | some instruction =>
    cases known : instruction.opcode? with
    | none =>
      simp only [Machine.step, fetches, fetched, known]
      rfl
    | some opcode =>
      have dispatched : Dispatches program machine instruction opcode := ⟨fetched, known⟩
      have dispatchedToo : Dispatches other (machine.relocated place) instruction opcode :=
        ⟨fetches.trans fetched, known⟩
      have next := same.next opcode (opcodeAt?_eq_some_iff.mpr ⟨_, dispatched⟩)
      have executed : ((machine.relocated place).counted.execute other.labels opcode
            instruction.operands).settle =
          (machine.counted.execute program.labels opcode
            instruction.operands).settle.relocated place :=
        execute_relocated machine.counted labels next
      rw [step_of_dispatches dispatched, step_of_dispatches dispatchedToo, executed]
      rfl

/-- A flush ends the relocated machine as it ends the machine. -/
theorem flushed_relocated (machine : Machine) (reached : Ending) :
    (machine.relocated place).flushed (reached.relocated place) =
      (machine.flushed reached).relocated place := by
  cases reached with
  | failed error => rfl
  | crashed crash => rfl
  | halted halt =>
    have sameOutput : (machine.relocated place).output = machine.output := rfl
    simp only [Ending.relocated, Machine.flushed, sameOutput]
    cases machine.output.flush.1 <;> rfl

end Steps

end IPPcode24
