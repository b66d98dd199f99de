import IPPcode24.Proofs.Atomicity

/-!
# Moments of a run

The steps of a program are counted across the ends of executions, and where an execution ends
the output is flushed before the next step. A step that goes on has performed the effect that its
instruction planned.
-/

namespace IPPcode24

/-- The machine after so many steps, in as many executions as they take. -/
def Machine.after (program : Program) (first : Machine) : Nat → Machine
  | 0 => first
  | count + 1 => (first.after program count).next program

/-- The next instruction has this opcode, and its step does not end the run. -/
structure Machine.Succeeds (program : Program) (machine : Machine) (opcode : Opcode) : Prop where
  next : program.opcodeAt? machine.pc = some opcode
  runs : (machine.step program).ending = none

instance (program : Program) (machine : Machine) (opcode : Opcode) :
    Decidable (machine.Succeeds program opcode) :=
  decidable_of_iff
    (program.opcodeAt? machine.pc = some opcode ∧ (machine.step program).ending = none)
    ⟨fun ⟨next, runs⟩ => ⟨next, runs⟩, fun succeeds => ⟨succeeds.next, succeeds.runs⟩⟩

/-! ## Steps that go on -/

section Steps

variable {program : Program} {first machine : Machine}

theorem opcodeAt?_eq_some_iff {opcode : Opcode} :
    program.opcodeAt? machine.pc = some opcode ↔
      ∃ instruction, Dispatches program machine instruction opcode := by
  rw [Program.opcodeAt?, Option.bind_eq_some_iff]
  constructor
  · rintro ⟨instruction, fetched, known⟩
    exact ⟨instruction, fetched, known⟩
  · rintro ⟨instruction, fetched, known⟩
    exact ⟨instruction, fetched, known⟩

/-- The instruction has planned the effect, and the effect has been performed. -/
structure Performs (program : Program) (machine : Machine) (instruction : Instruction)
    (opcode : Opcode) (effect : Effect) (flow : Flow) : Prop where
  dispatched : Dispatches program machine instruction opcode
  planned : opcode.plan program.labels machine.frames instruction.operands = .ok effect
  performed : (machine.counted.perform effect).flow = .ok flow
  settled : (machine.step program).machine =
    (flow.settle (machine.counted.perform effect).machine).1

theorem Machine.Succeeds.eq {opcode other : Opcode} (succeeds : machine.Succeeds program opcode)
    (succeedsToo : machine.Succeeds program other) : other = opcode :=
  Option.some.inj (succeedsToo.next.symm.trans succeeds.next)

/-- A step that goes on performs an effect of its instruction. -/
theorem exists_performs (runs : (machine.step program).ending = none) :
    ∃ instruction opcode effect flow, machine.Succeeds program opcode ∧
      Performs program machine instruction opcode effect flow := by
  have transition := transition_of_step program machine
  generalize next : (machine.step program).machine = after at transition
  rw [runs] at transition
  generalize same : (none : Option Ending) = reached at transition
  cases transition with
  | completed past => cases same
  | unknown fetched unknown => cases same
  | planless dispatched failed => cases same
  | refused dispatched planned refused => cases same
  | performed dispatched planned performed =>
    exact ⟨_, _, _, _, ⟨opcodeAt?_eq_some_iff.mpr ⟨_, dispatched⟩, runs⟩,
      dispatched, planned, performed, next⟩

/-- A step with a given opcode that goes on performs an effect of that opcode. -/
theorem Machine.Succeeds.performs {opcode : Opcode} (succeeds : machine.Succeeds program opcode) :
    ∃ instruction effect flow, Performs program machine instruction opcode effect flow := by
  obtain ⟨instruction, other, effect, flow, succeedsToo, performs⟩ := exists_performs succeeds.runs
  obtain rfl := succeeds.eq succeedsToo
  exact ⟨instruction, effect, flow, performs⟩

theorem Machine.Succeeds.performs_of_bare {opcode : Opcode} {effect : Effect}
    (succeeds : machine.Succeeds program opcode) (bare : opcode.Bare effect) :
    ∃ instruction flow, Performs program machine instruction opcode effect flow := by
  obtain ⟨instruction, other, flow, performs⟩ := succeeds.performs
  have planned := performs.planned
  rw [(plan_eq_ok_iff_of_bare bare).mpr rfl] at planned
  cases planned
  exact ⟨instruction, flow, performs⟩

theorem Flow.settle_calls (flow : Flow) (machine : Machine) :
    (flow.settle machine).1.calls = machine.calls := by cases flow <;> rfl

theorem Flow.settle_frames (flow : Flow) (machine : Machine) :
    (flow.settle machine).1.frames = machine.frames := by cases flow <;> rfl

end Steps

/-- The first later moment at which a depth is again what it was. -/
structure BackAt (depth : Nat → Nat) (first moment : Nat) : Prop where
  later : first < moment
  level : depth moment = depth first
  between : ∀ other, first < other → other < moment → depth other ≠ depth first

end IPPcode24
