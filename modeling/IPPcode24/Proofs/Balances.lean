import IPPcode24.Proofs.LocalFrames

/-!
# Balances

The events of a run account for three numbers of the machine: how many instructions have been
counted, how many calls are open and how many local frames there are. Every change of one of
them is told, right after the dispatch of the instruction that makes it, with the depth that it
leads to. What the events of a step account for is the difference between the machines before
and after the step.
-/

namespace IPPcode24

/-- What an event is about. -/
inductive Topic where
  | opening
  | dispatch
  | push
  | pop
  | call
  | ret
  | detail
  | closing
deriving DecidableEq

namespace Event

def topic : Event → Topic
  | started _ _ => .opening
  | dispatched _ _ => .dispatch
  | framePushed _ _ => .push
  | framePopped _ _ => .pop
  | called _ _ _ => .call
  | returned _ _ _ => .ret
  | frameCreated _ | printed _ _ | inspected _ _ _ _ _ _ => .detail
  | finished _ _ | aborted _ _ => .closing

def count (topic : Topic) (log : List Event) : Nat := log.countP (·.topic = topic)

end Event

/-- What events account for. -/
structure Balance where
  steps : Nat
  calls : CallStack
  locals : Nat

def Machine.balance (machine : Machine) : Balance :=
  ⟨machine.steps, machine.calls, machine.frames.locals.length⟩

/-- What an event says to have changed. The depths that it tells are those after the change. -/
inductive Event.Changes : Event → Balance → Balance → Prop where
  | dispatched {place : Nat} {opcode : Opcode} {balance : Balance} :
      Changes (.dispatched place opcode) balance { balance with steps := balance.steps + 1 }
  | pushed {place : Nat} {balance : Balance} :
      Changes (.framePushed place (balance.locals + 1)) balance
        { balance with locals := balance.locals + 1 }
  | popped {place locals : Nat} {balance : Balance} (top : balance.locals = locals + 1) :
      Changes (.framePopped place locals) balance { balance with locals }
  | called {place target : Nat} {balance : Balance} :
      Changes (.called place target (balance.calls.depth + 1)) balance
        { balance with calls := balance.calls.push (place + 1) }
  | returned {place target : Nat} {calls : CallStack} {balance : Balance}
      (top : balance.calls = target :: calls) :
      Changes (.returned place target calls.depth) balance { balance with calls }
  | other {event : Event} {balance : Balance}
      (neutral : event.topic = .opening ∨ event.topic = .detail ∨ event.topic = .closing) :
      Changes event balance balance

/-- What events say, one after the other, to have changed. -/
inductive Accounts : Balance → List Event → Balance → Prop where
  | nil {balance : Balance} : Accounts balance [] balance
  | cons {first next last : Balance} {event : Event} {log : List Event}
      (changes : event.Changes first next) (later : Accounts next log last) :
      Accounts first (event :: log) last

namespace Accounts

variable {first middle last : Balance} {log more : List Event}

theorem single {event : Event} (changes : event.Changes first last) :
    Accounts first [event] last := .cons changes .nil

theorem append (accounts : Accounts first log middle) (accountsToo : Accounts middle more last) :
    Accounts first (log ++ more) last := by
  induction accounts with
  | nil => exact accountsToo
  | cons changes _ ih => exact .cons changes (ih accountsToo)

/-- A log accounts for what its parts account for. -/
theorem split (accounts : Accounts first (log ++ more) last) :
    ∃ middle, Accounts first log middle ∧ Accounts middle more last := by
  induction log generalizing first with
  | nil => exact ⟨first, .nil, accounts⟩
  | cons event log ih =>
    cases accounts with
    | cons changes later =>
      obtain ⟨middle, before, after⟩ := ih later
      exact ⟨middle, .cons changes before, after⟩

/-- The count of instructions grows with the dispatches, the number of open calls with the
calls and against the returns, and that of local frames with the pushes and against the
pops. -/
theorem counts (accounts : Accounts first log last) :
    last.steps = first.steps + Event.count .dispatch log ∧
      last.calls.depth + Event.count .ret log = first.calls.depth + Event.count .call log ∧
      last.locals + Event.count .pop log = first.locals + Event.count .push log := by
  induction accounts with
  | nil => exact ⟨rfl, rfl, rfl⟩
  | @cons first next last event log changes _ ih =>
    obtain ⟨steps, calls, locals⟩ := ih
    have counted (topic : Topic) : Event.count topic (event :: log) =
        Event.count topic log + if event.topic = topic then 1 else 0 := by
      simp [Event.count, List.countP_cons]
    simp only [counted]
    cases changes with
    | dispatched | pushed =>
      simp only [Event.topic, reduceCtorEq, if_false, if_true] at steps calls locals ⊢
      omega
    | popped top =>
      simp only [Event.topic, reduceCtorEq, if_false, if_true, top] at steps calls locals ⊢
      omega
    | called =>
      simp only [Event.topic, reduceCtorEq, if_false, if_true, CallStack.depth, CallStack.push,
        List.length_cons] at steps calls locals ⊢
      omega
    | returned top =>
      simp only [Event.topic, reduceCtorEq, if_false, if_true, CallStack.depth, top,
        List.length_cons] at steps calls locals ⊢
      omega
    | other neutral =>
      rcases neutral with same | same | same <;>
        · simp only [same, reduceCtorEq, if_false]
          omega

end Accounts

/-- What an event that follows a dispatch tells is true of the machine after it. Executions
begin and end with other events. -/
def Event.Fits (next : Machine) : Event → Prop
  | framePushed _ depth | framePopped _ depth => depth = next.frames.locals.length
  | called _ _ depth | returned _ _ depth => depth = next.calls.depth
  | frameCreated _ | printed _ _ | inspected _ _ _ _ _ _ => True
  | started _ _ | dispatched _ _ | finished _ _ | aborted _ _ => False

/-- The next step tells nothing when there is no instruction with a known opcode, and otherwise
its dispatch and then at most one event more, which fits the machine after the step. -/
inductive Machine.Tells (program : Program) (machine : Machine) : List Event → Prop where
  | nothing (unknown : program.opcodeAt? machine.pc = none) : machine.Tells program []
  | dispatch {opcode : Opcode} {rest : List Event}
      (next : program.opcodeAt? machine.pc = some opcode) (brief : rest.length ≤ 1)
      (fits : ∀ event ∈ rest, event.Fits (machine.step program).machine) :
      machine.Tells program (.dispatched machine.pc opcode :: rest)

/-! ## Effects -/

/-- What an effect tells: at most one event, which fits the machine after the effect and
accounts for the change. -/
structure Performed.Honest (performed : Performed) (before : Balance) : Prop where
  brief : performed.events.length ≤ 1
  fits : ∀ event ∈ performed.events, event.Fits performed.machine
  accounts : Accounts before performed.events performed.machine.balance

section Effects

variable {machine : Machine}

theorem Performed.Honest.of_silent {performed : Performed} {before : Balance}
    (silent : performed.events = []) (same : performed.machine.balance = before) :
    performed.Honest before := by
  refine ⟨?_, ?_, ?_⟩
  · rw [silent]
    exact Nat.zero_le 1
  · rw [silent]
    exact nofun
  · rw [silent, same]
    exact .nil

theorem Performed.Honest.of_event {performed : Performed} {before : Balance} {event : Event}
    (told : performed.events = [event]) (fits : event.Fits performed.machine)
    (changes : event.Changes before performed.machine.balance) : performed.Honest before := by
  refine ⟨?_, ?_, ?_⟩
  · rw [told]
    exact le_rfl
  · rw [told]
    exact List.forall_mem_singleton.mpr fits
  · rw [told]
    exact .single changes

theorem honest_refuse (machine : Machine) (fault : Fault) :
    (machine.refuse fault).Honest machine.balance := .of_silent rfl rfl

theorem length_locals_replace {frames : Frames} {tag : FrameTag} {old : Frame}
    (present : frames.frame? tag = some old) (new : Frame) :
    (frames.replace new tag).locals.length = frames.locals.length := by
  rcases locals_replace present new with same | ⟨rest, before, after⟩
  · rw [same]
  · rw [before, after, List.length_cons, List.length_cons]

/-- Declarations and assignments keep the number of local frames. -/
theorem honest_withFrames {result : Except FrameError Frames}
    (kept : ∀ frames, result = .ok frames →
      frames.locals.length = machine.frames.locals.length) :
    (machine.withFrames result fun _ => []).Honest machine.balance := by
  cases result with
  | error error => exact honest_refuse machine error.fault
  | ok frames =>
    refine .of_silent rfl ?_
    rw [Machine.balance, Machine.balance, ← kept frames rfl]
    rfl

theorem honest_define (machine : Machine) (ref : Variable) :
    (machine.perform (.define ref)).Honest machine.balance := by
  refine honest_withFrames fun frames defined => ?_
  obtain ⟨frame, present, _, same⟩ := Frames.define_eq_ok defined
  rw [same]
  exact length_locals_replace present _

theorem honest_set (machine : Machine) (ref : Variable) (value : Value) :
    (machine.withFrames (machine.frames.set ref value) fun _ => []).Honest machine.balance := by
  refine honest_withFrames fun frames assigned => ?_
  obtain ⟨frame, present, _, same⟩ := Frames.set_eq_ok assigned
  rw [same]
  exact length_locals_replace present _

theorem honest_readInto (machine : Machine) (target : Operand) (kind : Kind) :
    (machine.readInto target kind).Honest machine.balance := by
  rcases readInto_cases machine target kind with
    ⟨crash, _, same⟩ | ⟨failure, _, same⟩ | ⟨value, ref, _, same⟩
  · rw [same]
    exact .of_silent rfl rfl
  · rw [same]
    exact .of_silent rfl rfl
  · rw [same]
    exact honest_set { machine with input := (machine.input.read kind).2 } ref value

theorem honest_perform (machine : Machine) (effect : Effect) :
    (machine.perform effect).Honest machine.balance := by
  cases effect with
  | pass | jump _ | exit _ => exact .of_silent rfl rfl
  | define ref => exact honest_define machine ref
  | assign ref value => exact honest_set machine ref value
  | read target kind => exact honest_readInto machine target kind
  | write text =>
    rw [perform_write]
    exact .of_silent rfl rfl
  | createFrame => exact .of_event rfl trivial (.other (Or.inr (Or.inl rfl)))
  | print _ => exact .of_event rfl trivial (.other (Or.inr (Or.inl rfl)))
  | inspect => exact .of_event rfl trivial (.other (Or.inr (Or.inl rfl)))
  | call place => exact .of_event rfl rfl (@Event.Changes.called machine.pc place machine.balance)
  | pushFrame =>
    rw [Machine.perform]
    cases pushed : machine.frames.push with
    | error error => exact honest_refuse machine error.fault
    | ok frames =>
      obtain ⟨⟨frame, stacked⟩, _⟩ := Frames.push_eq_ok pushed
      have deeper : frames.locals.length = machine.frames.locals.length + 1 := by
        rw [stacked, List.length_cons]
      refine .of_event rfl rfl ?_
      simp only [Machine.withFrames, Machine.balance, deeper]
      exact @Event.Changes.pushed machine.pc machine.balance
  | popFrame =>
    rw [Machine.perform]
    cases popped : machine.frames.pop with
    | error error => exact honest_refuse machine error.fault
    | ok frames =>
      obtain ⟨frame, stacked⟩ := Frames.pop_eq_ok popped
      refine .of_event rfl rfl (.popped ?_)
      simp only [Machine.balance, stacked, List.length_cons]
  | ret =>
    simp only [Machine.perform]
    cases opened : machine.calls with
    | nil => exact honest_refuse machine _
    | cons place calls => exact .of_event rfl rfl (.returned opened)

end Effects

/-! ## Steps -/

section Steps

variable {program : Program} {machine : Machine}

theorem honest_execute (machine : Machine) (labels : LabelTable) (opcode : Opcode)
    (operands : List Operand) :
    (machine.execute labels opcode operands).Honest machine.balance := by
  rw [Machine.execute]
  split
  · exact honest_perform machine _
  · exact .of_silent rfl rfl

/-- Going on to another place changes no balance and no depth. -/
theorem Performed.settle_machine (performed : Performed) :
    ∃ pc, performed.settle.machine = { performed.machine with pc } := by
  rw [settle]
  split <;> exact ⟨_, rfl⟩

theorem Event.Fits.moved {event : Event} (fits : event.Fits machine) (pc : Nat) :
    event.Fits { machine with pc } := by
  cases event <;> exact fits

/-- A step tells what it changes, and what it tells is true. -/
theorem tells_of_step (program : Program) (machine : Machine) :
    machine.Tells program (machine.step program).events ∧
      Accounts machine.balance (machine.step program).events
        (machine.step program).machine.balance := by
  cases fetched : program.instructions[machine.pc]? with
  | none =>
    have stopped : machine.step program = ⟨machine, [], some (.halted .completed)⟩ := by
      simp only [Machine.step, fetched]
    rw [stopped]
    exact ⟨.nothing (by rw [Program.opcodeAt?, fetched]; rfl), .nil⟩
  | some instruction =>
    cases known : instruction.opcode? with
    | none =>
      have stopped : machine.step program = ⟨machine, [],
          some (.failed ⟨machine.pc, .unknownOpcode instruction.mnemonic⟩)⟩ := by
        simp only [Machine.step, fetched, known]
      rw [stopped]
      exact ⟨.nothing (by rw [Program.opcodeAt?, fetched]; exact known), .nil⟩
    | some opcode =>
      have dispatched : Dispatches program machine instruction opcode := ⟨fetched, known⟩
      have honest := honest_execute machine.counted program.labels opcode instruction.operands
      have stepped := step_of_dispatches dispatched
      generalize machine.counted.execute program.labels opcode instruction.operands = performed
        at honest stepped
      obtain ⟨pc, moved⟩ := performed.settle_machine
      have told : (machine.step program).events =
          .dispatched machine.pc opcode :: performed.events := by
        rw [stepped, ← performed.settle_events]
      have next : (machine.step program).machine = { performed.machine with pc } := by
        rw [stepped, ← moved]
      constructor
      · rw [told]
        refine .dispatch (opcodeAt?_eq_some_iff.mpr ⟨_, dispatched⟩) honest.brief ?_
        intro event member
        rw [next]
        exact (honest.fits event member).moved pc
      · rw [told, next]
        exact .cons .dispatched honest.accounts

end Steps

end IPPcode24
