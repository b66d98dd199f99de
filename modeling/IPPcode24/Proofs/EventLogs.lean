import IPPcode24.Proofs.Balances

/-!
# Event logs

The log of an execution opens with its start, goes on with what its steps tell, and closes with
the way it ended. So the counts of its events account for the difference between the machines
before and after it. Over all executions of a machine, the events of calls and returns are
properly nested, and a return goes to the place after the call that it matches.
-/

namespace IPPcode24

/-! ## Nested events -/

/-- Calls and returns match one another in these events. -/
inductive Nested : List Event → Prop where
  | nil : Nested []
  | other {event : Event} {rest : List Event} (noCall : event.topic ≠ .call)
      (noRet : event.topic ≠ .ret) (later : Nested rest) : Nested (event :: rest)
  | pair {caller callee level place target depth : Nat} {inner rest : List Event}
      (inside : Nested inner) (later : Nested rest) :
      Nested (.called caller callee level :: (inner ++ .returned place target depth :: rest))

/-- The log has left open these calls: each place to return to follows a call, with nested
events behind it. -/
inductive LeavesOpen : List Event → CallStack → Prop where
  | closed {log : List Event} (nested : Nested log) : LeavesOpen log []
  | opened {front between : List Event} {caller callee level : Nat} {calls : CallStack}
      (outer : LeavesOpen front calls) (nested : Nested between) :
      LeavesOpen (front ++ .called caller callee level :: between) ((caller + 1) :: calls)

section Nesting

variable {log more : List Event} {calls : CallStack}

theorem Nested.append (nested : Nested log) (nestedToo : Nested more) : Nested (log ++ more) := by
  induction nested with
  | nil => exact nestedToo
  | other noCall noRet _ ih => exact .other noCall noRet ih
  | pair inside _ _ ih =>
    rw [List.cons_append, List.append_assoc, List.cons_append]
    exact .pair inside ih

theorem Nested.single {event : Event} (noCall : event.topic ≠ .call) (noRet : event.topic ≠ .ret) :
    Nested [event] := .other noCall noRet .nil

theorem LeavesOpen.append (leaves : LeavesOpen log calls) (nested : Nested more) :
    LeavesOpen (log ++ more) calls := by
  cases leaves with
  | closed before => exact .closed (before.append nested)
  | opened outer before =>
    rw [List.append_assoc, List.cons_append]
    exact .opened outer (before.append nested)

theorem LeavesOpen.exists_call {target : Nat} (leaves : LeavesOpen log (target :: calls)) :
    ∃ front caller callee level between, log = front ++ .called caller callee level :: between ∧
      Nested between ∧ target = caller + 1 ∧ LeavesOpen front calls := by
  cases leaves with
  | opened outer nested => exact ⟨_, _, _, _, _, rfl, nested, rfl, outer⟩

/-- An event changes the calls that a log leaves open as it changes the balance. -/
theorem LeavesOpen.changes {first next : Balance} {event : Event}
    (leaves : LeavesOpen log first.calls) (changes : event.Changes first next) :
    LeavesOpen (log ++ [event]) next.calls := by
  cases changes with
  | dispatched => exact leaves.append (.single nofun nofun)
  | pushed => exact leaves.append (.single nofun nofun)
  | popped => exact leaves.append (.single nofun nofun)
  | called => exact .opened leaves .nil
  | returned top =>
    rw [top] at leaves
    obtain ⟨front, caller, callee, level, between, rfl, nested, _, outer⟩ := leaves.exists_call
    -- the return closes the call in front of it, and both together are nested
    rw [List.append_assoc, List.cons_append]
    exact outer.append (.pair nested .nil)
  | other neutral =>
    refine leaves.append (.single ?_ ?_) <;>
      · intro same
        rw [same] at neutral
        rcases neutral with impossible | impossible | impossible <;> cases impossible

theorem LeavesOpen.accounts {first last : Balance} (leaves : LeavesOpen log first.calls)
    (accounts : Accounts first more last) : LeavesOpen (log ++ more) last.calls := by
  induction accounts generalizing log with
  | nil =>
    rw [List.append_nil]
    exact leaves
  | @cons _ _ _ event _ changes _ ih =>
    rw [← List.singleton_append, ← List.append_assoc]
    exact ih (leaves.changes changes)

/-- In a log that begins without open calls, every return goes to the place after the call that
it matches. -/
theorem exists_matching_call {first last : Balance} (accounts : Accounts first log last)
    (fresh : first.calls = []) {before after : List Event} {place target depth : Nat}
    (split : log = before ++ .returned place target depth :: after) :
    ∃ front caller callee level between,
      before = front ++ .called caller callee level :: between ∧ Nested between ∧
        target = caller + 1 := by
  rw [split] at accounts
  obtain ⟨middle, earlier, later⟩ := accounts.split
  have start : LeavesOpen [] first.calls := fresh ▸ .closed .nil
  have leaves : LeavesOpen before middle.calls := start.accounts earlier
  cases later with
  | cons changes _ =>
    cases changes with
    | returned top =>
      rw [top] at leaves
      obtain ⟨front, caller, callee, level, between, same, nested, follows, _⟩ :=
        leaves.exists_call
      exact ⟨front, caller, callee, level, between, same, nested, follows⟩
    | other neutral => rcases neutral with same | same | same <;> cases same

end Nesting

/-! ## Runs -/

def Machine.told (program : Program) (first : Machine) (count : Nat) : List Event :=
  (List.range count).flatMap fun moment => ((first.after program moment).step program).events

/-- The event that an execution with this ending closes with; a crash is not told. -/
def Execution.closing (execution : Execution) : List Event :=
  match execution.ending with
  | .halted halt => [.finished halt.code execution.machine.steps]
  | .failed error => [.aborted error execution.machine.steps]
  | .crashed _ => []

/-- The machine that a run leaves behind: where it has ended, the output has been flushed. -/
def Run.left (run : Run) : Machine :=
  match run.ending with
  | none => run.machine
  | some reached => run.machine.closed reached

section Runs

variable {program : Program} {first : Machine}

theorem told_succ (program : Program) (first : Machine) (count : Nat) :
    first.told program (count + 1) =
      first.told program count ++ ((first.after program count).step program).events := by
  simp [Machine.told, List.range_succ]

theorem left_advance {run : Run} (going : run.ending = none) :
    (run.advance program).left = run.machine.next program := by
  rw [Run.advance_of_going going]
  rfl

/-- A run has told what the steps so far tell, and nothing else. -/
theorem exists_told (program : Program) (first : Machine) (fuel : Nat) :
    ∃ count, ((Run.start first).continued program fuel).left = first.after program count ∧
      ((Run.start first).continued program fuel).log.reverse = first.told program count := by
  induction fuel with
  | zero => exact ⟨0, rfl, rfl⟩
  | succ fuel ih =>
    rw [continued_succ]
    generalize (Run.start first).continued program fuel = run at ih ⊢
    obtain ⟨count, place, told⟩ := ih
    cases ended : run.ending with
    | some reached =>
      have stays : run.advance program = run := by simp only [Run.advance, ended]
      rw [stays]
      exact ⟨count, place, told⟩
    | none =>
      have here : run.machine = first.after program count := by rw [← place, Run.left, ended]
      refine ⟨count + 1, ?_, ?_⟩
      · rw [left_advance ended, here]
        rfl
      · rw [Run.advance_of_going ended, List.reverse_append, List.reverse_reverse, told,
          told_succ, here]

/-- The log of an execution: the start, what its steps tell, and the end. -/
theorem exists_told_of_execution {fuel : Nat} {execution : Execution}
    (executed : first.execution? fuel program = some execution) :
    ∃ count, execution.machine = first.after program count ∧
      execution.log = .started program.size program.labels.length ::
        (first.told program count ++ execution.closing) := by
  obtain ⟨reached, ended, rfl⟩ := Option.map_eq_some_iff.mp executed
  obtain ⟨count, place, told⟩ := exists_told program first fuel
  rw [Run.left, ended] at place
  refine ⟨count, place, ?_⟩
  simp only [told, Execution.closing]
  generalize ((Run.start first).continued program fuel).machine.flushed reached = ending
  cases ending <;> rfl

theorem balance_next (machine : Machine) :
    (machine.next program).balance = (machine.step program).machine.balance := by
  obtain ⟨output, same⟩ := next_eq program machine
  rw [same]
  rfl

theorem accounts_of_told (program : Program) (first : Machine) (count : Nat) :
    Accounts first.balance (first.told program count) (first.after program count).balance := by
  induction count with
  | zero => exact .nil
  | succ count ih =>
    rw [told_succ, Machine.after, balance_next]
    exact ih.append (tells_of_step program (first.after program count)).2

theorem topic_of_mem_closing {execution : Execution} {event : Event}
    (member : event ∈ execution.closing) : event.topic = .closing := by
  rw [Execution.closing] at member
  split at member
  · rw [List.mem_singleton.mp member]
    rfl
  · rw [List.mem_singleton.mp member]
    rfl
  · cases member

theorem Accounts.of_neutral {balance : Balance} {log : List Event}
    (neutral : ∀ event ∈ log, event.topic = .closing) : Accounts balance log balance := by
  induction log with
  | nil => exact .nil
  | cons event log ih =>
    exact .cons (.other (Or.inr (Or.inr (neutral event List.mem_cons_self))))
      (ih fun other member => neutral other (List.mem_cons_of_mem event member))

theorem accounts_of_execution {fuel : Nat} {execution : Execution}
    (executed : first.execution? fuel program = some execution) :
    Accounts first.balance execution.log execution.machine.balance := by
  obtain ⟨count, place, log⟩ := exists_told_of_execution executed
  rw [log, place]
  exact .cons (.other (Or.inl rfl)) ((accounts_of_told program first count).append
    (.of_neutral fun _ => topic_of_mem_closing))

/-- A step tells of no start and no end of an execution. -/
theorem topic_of_mem_told {count : Nat} {event : Event}
    (member : event ∈ first.told program count) :
    event.topic ≠ .opening ∧ event.topic ≠ .closing := by
  obtain ⟨moment, _, member⟩ := List.mem_flatMap.mp member
  cases tells_of_step program (first.after program moment) with
  | intro tells _ =>
    generalize ((first.after program moment).step program).events = events at tells member
    cases tells with
    | nothing => cases member
    | dispatch _ _ fits =>
      rcases List.mem_cons.mp member with rfl | later
      · exact ⟨nofun, nofun⟩
      · have fit := fits event later
        cases event with
        | started _ _ | dispatched _ _ | finished _ _ | aborted _ _ => exact fit.elim
        | _ => exact ⟨nofun, nofun⟩

theorem count_told_eq_zero {count : Nat} {topic : Topic}
    (outer : topic = .opening ∨ topic = .closing) :
    Event.count topic (first.told program count) = 0 := by
  rw [Event.count, List.countP_eq_zero]
  intro event member
  obtain ⟨notOpening, notClosing⟩ := topic_of_mem_told member
  rcases outer with rfl | rfl
  · simpa using notOpening
  · simpa using notClosing

end Runs

/-! ## Executions -/

/-- The machines that are left after any number of executions, with everything that these have
told. -/
inductive Chronicle (program : Program) (first : Machine) : Machine → List Event → Prop where
  | start : Chronicle program first first []
  | execute {machine : Machine} {history : List Event} {fuel : Nat} {execution : Execution}
      (earlier : Chronicle program first machine history)
      (executed : machine.execution? fuel program = some execution) :
      Chronicle program first execution.machine (history ++ execution.log)

theorem Chronicle.accounts {program : Program} {first machine : Machine} {history : List Event}
    (chronicle : Chronicle program first machine history) :
    Accounts first.balance history machine.balance := by
  induction chronicle with
  | start => exact .nil
  | execute _ executed ih => exact ih.append (accounts_of_execution executed)

/-- The log ends with how the execution ended: with the code of a halt, or with the error of a
failure, and with the count of instructions. Only a crash leaves a log without an end. -/
def Execution.Closes (execution : Execution) : Prop :=
  match execution.ending with
  | .halted halt =>
    execution.log.getLast? = some (.finished halt.code execution.machine.steps) ∧
      Event.count .closing execution.log = 1
  | .failed error =>
    execution.log.getLast? = some (.aborted error execution.machine.steps) ∧
      Event.count .closing execution.log = 1
  | .crashed _ => Event.count .closing execution.log = 0

theorem Execution.closes_of_log {execution : Execution} {front : List Event}
    (log : execution.log = front ++ execution.closing)
    (inner : Event.count .closing front = 0) : execution.Closes := by
  have counted : Event.count .closing execution.log =
      Event.count .closing execution.closing := by
    rw [log, Event.count, List.countP_append]
    change Event.count .closing front + _ = _
    rw [inner, Nat.zero_add]
    rfl
  unfold Closes
  rw [counted, log]
  unfold closing
  split
  · exact ⟨List.getLast?_concat, rfl⟩
  · exact ⟨List.getLast?_concat, rfl⟩
  · rfl

/-- An execution of a machine that was fresh once, after any number of other executions: its
log opens with its only start and closes with its only end, which tells how it ended and the
count of instructions. The count has grown by the number of dispatches, the open calls by that
of calls less returns, and the local frames by that of pushes less pops. Between the start and
the end stands what the steps tell: each of them its dispatch and at most one event after it,
whose depth is that of the machine then. In everything told so far, each return goes to the
place after the call that it matches. -/
theorem trace_accounts_for_state (program : Program) (input : Input) (output : Output)
    {machine : Machine} {history : List Event} {fuel : Nat} {execution : Execution}
    (chronicle : Chronicle program (.start input output) machine history)
    (executed : machine.execution? fuel program = some execution) :
    (execution.log.head? = some (.started program.size program.labels.length) ∧
      Event.count .opening execution.log = 1 ∧ execution.Closes) ∧
    (execution.machine.steps = machine.steps + Event.count .dispatch execution.log ∧
      execution.machine.calls.depth + Event.count .ret execution.log =
        machine.calls.depth + Event.count .call execution.log ∧
      execution.machine.frames.locals.length + Event.count .pop execution.log =
        machine.frames.locals.length + Event.count .push execution.log) ∧
    (∃ count, execution.machine = machine.after program count ∧
      execution.log = .started program.size program.labels.length ::
        ((List.range count).flatMap
          (fun moment => ((machine.after program moment).step program).events) ++
            execution.closing) ∧
      ∀ moment < count, (machine.after program moment).Tells program
        ((machine.after program moment).step program).events) ∧
    ∀ (before after : List Event) (place target depth : Nat),
      history ++ execution.log = before ++ .returned place target depth :: after →
      ∃ front caller callee level between,
        before = front ++ .called caller callee level :: between ∧ Nested between ∧
          target = caller + 1 := by
  obtain ⟨count, place, log⟩ := exists_told_of_execution executed
  have accounts := accounts_of_execution executed
  refine ⟨⟨?_, ?_, ?_⟩, accounts.counts, ⟨count, place, log, ?_⟩, ?_⟩
  · rw [log]
    rfl
  · have closing : Event.count .opening execution.closing = 0 := by
      rw [Event.count, List.countP_eq_zero]
      intro event member
      rw [topic_of_mem_closing member]
      decide
    have steps : Event.count .opening (machine.told program count) = 0 :=
      count_told_eq_zero (Or.inl rfl)
    rw [log, Event.count, List.countP_cons, List.countP_append]
    change Event.count .opening (machine.told program count) +
      Event.count .opening execution.closing + 1 = 1
    rw [steps, closing]
  · have front : execution.log = (.started program.size program.labels.length ::
        machine.told program count) ++ execution.closing := log
    refine Execution.closes_of_log front ?_
    have steps : Event.count .closing (machine.told program count) = 0 :=
      count_told_eq_zero (Or.inr rfl)
    rw [Event.count, List.countP_cons]
    change Event.count .closing (machine.told program count) + 0 = 0
    rw [steps]
  · exact fun moment _ => (tells_of_step program (machine.after program moment)).1
  · intro before after place target depth split
    exact exists_matching_call (chronicle.accounts.append accounts) rfl split

/-- A program whose subroutine pushes a frame, and which returns once too often. -/
def pushesInSubroutine : Program :=
  ⟨[⟨1, "CALL".toList, [⟨.label, ['f']⟩]⟩, ⟨2, "RETURN".toList, []⟩,
    ⟨3, "LABEL".toList, [⟨.label, ['f']⟩]⟩, ⟨4, "CREATEFRAME".toList, []⟩,
    ⟨5, "PUSHFRAME".toList, []⟩, ⟨6, "RETURN".toList, []⟩], [(['f'], 2)]⟩

/-- What the second execution of this program tells: it stands at the RETURN that fails. -/
def secondLog : List Event :=
  [.started 6 1, .dispatched 1 .ret, .aborted ⟨1, .emptyCallStack⟩ 7]

/-- The first execution calls, pushes a frame and returns, and fails; the second one fails at
once. In the log of both, the return of the first one goes behind its call. -/
theorem second_execution_is_accounted_for :
    ∃ (machine : Machine) (history : List Event) (execution : Execution),
      Chronicle pushesInSubroutine (.start ⟨[]⟩ .unbounded) machine history ∧
      machine.execution? 1 pushesInSubroutine = some execution ∧ execution.log = secondLog ∧
      execution.Closes ∧ machine.steps = 6 ∧
      execution.machine.steps = machine.steps + Event.count .dispatch secondLog ∧
      Event.count .push history = 1 ∧ machine.frames.locals.length = 1 ∧
      ∀ (before after : List Event) (place target depth : Nat),
        history ++ execution.log = before ++ .returned place target depth :: after →
        ∃ front caller callee level between,
          before = front ++ .called caller callee level :: between ∧ Nested between ∧
            target = caller + 1 := by
  have first : ((Machine.start ⟨[]⟩ .unbounded).execution? 7 pushesInSubroutine).isSome = true := by
    decide +kernel
  obtain ⟨stopped, executed⟩ := Option.isSome_iff_exists.mp first
  have state : stopped.machine.steps = 6 ∧ Event.count .push stopped.log = 1 ∧
      stopped.machine.frames.locals.length = 1 ∧
      (stopped.machine.execution? 1 pushesInSubroutine).map (·.log) = some secondLog := by
    have evaluated : ((Machine.start ⟨[]⟩ .unbounded).execution? 7 pushesInSubroutine).all
        (fun stopped => decide (stopped.machine.steps = 6 ∧ Event.count .push stopped.log = 1 ∧
          stopped.machine.frames.locals.length = 1 ∧
          (stopped.machine.execution? 1 pushesInSubroutine).map (·.log) =
            some secondLog)) = true := by decide +kernel
    rw [executed] at evaluated
    exact of_decide_eq_true evaluated
  obtain ⟨steps, pushes, locals, again⟩ := state
  obtain ⟨execution, executedToo, log⟩ := Option.map_eq_some_iff.mp again
  have chronicle : Chronicle pushesInSubroutine (.start ⟨[]⟩ .unbounded) stopped.machine
      ([] ++ stopped.log) := .execute .start executed
  obtain ⟨⟨_, _, closes⟩, ⟨counted, _⟩, _, matched⟩ :=
    trace_accounts_for_state pushesInSubroutine ⟨[]⟩ .unbounded chronicle executedToo
  refine ⟨stopped.machine, _, execution, chronicle, executedToo, log, closes, steps, ?_, ?_,
    locals, matched⟩
  · rw [← log]
    exact counted
  · exact pushes

end IPPcode24
