import IPPcode24.Proofs.Moments
import Mathlib.Data.Nat.Init

/-!
# Calls and returns

A CALL that succeeds pushes the place after it, a RETURN that succeeds pops the place it
goes to, and nothing else changes the open calls. So every return matches one call: when
as many calls are open as before a CALL, and for the first time since, a RETURN has just gone
to the place after that CALL, and the open calls are those from before it. As many calls are
open as there have been more calls than returns.
-/

namespace IPPcode24

section Steps

variable {program : Program} {machine : Machine}

/-- What a step does to the open calls. -/
inductive CallsStep (program : Program) (machine next : Machine) : Prop where
  | same (calls : next.calls = machine.calls) (noCall : ¬ machine.Succeeds program .call)
      (noRet : ¬ machine.Succeeds program .ret) : CallsStep program machine next
  | call (called : machine.Succeeds program .call)
      (calls : next.calls = (machine.pc + 1) :: machine.calls) : CallsStep program machine next
  | ret (returned : machine.Succeeds program .ret)
      (calls : machine.calls = next.pc :: next.calls) : CallsStep program machine next

theorem calls_of_perform_ret {flow : Flow} (performed : (machine.perform .ret).flow = .ok flow) :
    machine.calls = (flow.settle (machine.perform .ret).machine).1.pc ::
      (flow.settle (machine.perform .ret).machine).1.calls := by
  cases opened : machine.calls with
  | nil =>
    simp only [Machine.perform, CallStack.pop?, opened] at performed
    cases performed
  | cons place rest =>
    simp only [Machine.perform, CallStack.pop?, opened] at performed ⊢
    cases performed
    rfl

theorem calls_of_next (program : Program) (machine : Machine) :
    CallsStep program machine (machine.next program) := by
  cases ended : (machine.step program).ending with
  | some ending =>
    have stopped (opcode : Opcode) : ¬ machine.Succeeds program opcode := by
      intro succeeds
      rw [succeeds.runs] at ended
      cases ended
    obtain ⟨input, output, same, _⟩ := machine_of_ended ended
    exact .same (by rw [next_calls, same]) (stopped .call) (stopped .ret)
  | none =>
    obtain ⟨instruction, opcode, effect, flow, succeeds, performs⟩ := exists_performs ended
    have planned := performs.planned
    have kept : (machine.step program).machine.calls =
        (machine.counted.perform effect).machine.calls := by
      rw [performs.settled, Flow.settle_calls]
    rw [next_of_going ended]
    by_cases calls : ∃ place, effect = .call place
    · obtain ⟨place, rfl⟩ := calls
      obtain ⟨rfl, _⟩ := target_of_plan_call planned
      exact .call succeeds kept
    by_cases returns : effect = .ret
    · subst returns
      obtain rfl := (plan_eq_ok_iff_of_bare .ret).mp planned
      refine .ret succeeds ?_
      rw [performs.settled]
      exact calls_of_perform_ret performs.performed
    · refine .same ?_ ?_ ?_
      · rw [kept, perform_calls (fun place same => calls ⟨place, same⟩) returns]
        rfl
      · intro called
        obtain rfl := succeeds.eq called
        exact calls (effect_of_plan_call planned)
      · intro returned
        obtain rfl := succeeds.eq returned
        rw [(plan_eq_ok_iff_of_bare .ret).mpr rfl] at planned
        exact returns (Except.ok.inj planned).symm

theorem calls_of_call (called : machine.Succeeds program .call) :
    (machine.next program).calls = (machine.pc + 1) :: machine.calls := by
  cases calls_of_next program machine with
  | same _ noCall => exact absurd called noCall
  | call _ calls => exact calls
  | ret returned => cases called.eq returned

theorem empty_of_failing (failing : Failing program machine (.error .emptyCallStack)) :
    program.opcodeAt? machine.pc = some .ret ∧ machine.calls = [] := by
  generalize same : Fault.emptyCallStack = fault at failing
  have notFrame (error : FrameError) : Fault.emptyCallStack ≠ error.fault := by
    cases error <;> exact nofun
  cases failing with
  | unknown fetched unknown => cases same
  | planless dispatched failed =>
    cases obstacle_of_plan failed with
    | fewOperands few => cases same
    | wrongClass hslot hoperand refused => cases same
    | wrongThird third past refused => cases same
    | noLabel first unknown => cases same
    | noTarget first slot unreadable => cases same
    | unresolved argument symbol unresolved =>
      cases unresolved with
      | unavailable readable refused => exact absurd same (notFrame _)
      | _ => cases same
    | complaint found complaint => cases complaint <;> cases same
  | refused dispatched planned refusal =>
    cases refusal with
    | ret empty =>
      obtain rfl := (plan_eq_ok_iff_of_bare .ret).mp planned
      exact ⟨opcodeAt?_eq_some_iff.mpr ⟨_, dispatched⟩, empty⟩
    | write refused => cases same
    | readTarget unreadable => cases same
    | _ => exact absurd same (notFrame _)

theorem ending_eq_emptyCallStack_iff {place : Nat} :
    (machine.step program).ending = some (.failed ⟨place, .emptyCallStack⟩) ↔
      place = machine.pc ∧ program.opcodeAt? machine.pc = some .ret ∧ machine.calls = [] := by
  constructor
  · intro ended
    rcases ending_of_step ended with ⟨halt, impossible⟩ | ⟨failure, same, failing⟩
    · cases impossible
    · obtain rfl := Failure.ending_eq_failed same.symm
      cases same
      exact ⟨rfl, empty_of_failing failing⟩
  · rintro ⟨rfl, next, empty⟩
    obtain ⟨instruction, dispatched⟩ := opcodeAt?_eq_some_iff.mp next
    have planned : Opcode.ret.plan program.labels machine.frames instruction.operands =
        .ok .ret := (plan_eq_ok_iff_of_bare .ret).mpr rfl
    have starved : machine.counted.perform .ret = machine.counted.refuse .emptyCallStack := by
      simp only [Machine.perform, Machine.counted, CallStack.pop?, empty]
    rw [ending_of_planned dispatched planned, starved]
    rfl

end Steps

section Runs

variable {program : Program} {first : Machine}

/-- How many steps with an opcode have gone on before a moment. -/
def Machine.successes (program : Program) (first : Machine) (opcode : Opcode) (moment : Nat) :
    Nat :=
  (List.range moment).countP fun earlier => (first.after program earlier).Succeeds program opcode

theorem successes_succ (opcode : Opcode) (moment : Nat) :
    first.successes program opcode (moment + 1) = first.successes program opcode moment +
      if (first.after program moment).Succeeds program opcode then 1 else 0 := by
  simp [Machine.successes, List.range_succ, List.countP_append, List.countP_singleton]

theorem calls_add_returns (program : Program) (first : Machine) (moment : Nat) :
    (first.after program moment).calls.length + first.successes program .ret moment =
      first.calls.length + first.successes program .call moment := by
  induction moment with
  | zero => rfl
  | succ moment ih =>
    rw [successes_succ, successes_succ]
    change ((first.after program moment).next program).calls.length + _ = _
    cases calls_of_next program (first.after program moment) with
    | same calls noCall noRet =>
      rw [calls, if_neg noCall, if_neg noRet]
      exact ih
    | call called calls =>
      have noRet : ¬ (first.after program moment).Succeeds program .ret := by
        intro returned
        cases called.eq returned
      rw [calls, if_pos called, if_neg noRet, List.length_cons]
      omega
    | ret returned calls =>
      have noCall : ¬ (first.after program moment).Succeeds program .call := by
        intro called
        cases returned.eq called
      rw [calls, List.length_cons] at ih
      rw [if_neg noCall, if_pos returned]
      omega

/-- From a call on, and until as few calls are open as before it, the place after it stays
open above the calls from before it. -/
theorem suffix_until_back {caller moment : Nat}
    (called : (first.after program caller).Succeeds program .call)
    (back : BackAt (fun other => (first.after program other).calls.length) caller moment)
    (other : Nat) (after : caller + 1 ≤ other) (before : other < moment) :
    ((first.after program caller).pc + 1) :: (first.after program caller).calls <:+
      (first.after program other).calls := by
  induction other, after using Nat.le_induction with
  | base =>
    change _ <:+ ((first.after program caller).next program).calls
    simp only [calls_of_call called, List.suffix_rfl]
  | succ other after ih =>
    have stays := ih (by omega)
    have avoids := back.between (other + 1) (by omega) before
    change ((first.after program other).next program).calls.length ≠ _ at avoids
    change _ <:+ ((first.after program other).next program).calls
    cases calls_of_next program (first.after program other) with
    | same calls => rwa [calls]
    | call _ calls =>
      rw [calls]
      exact stays.trans (List.suffix_cons _ _)
    | ret _ calls =>
      rw [calls, List.suffix_cons_iff] at stays
      rcases stays with whole | stays
      · -- the return to the place after the call would be back at the level of the call
        exact absurd (congrArg List.length (List.cons.inj whole).2.symm) avoids
      · exact stays

end Runs

/-- From a fresh machine on, in any number of executions: at the first moment after a CALL
at which as many calls are open as before it, a RETURN has just succeeded, the same calls are
open as before the CALL, and the run is at the place after it. A step fails for the lack of
an open call exactly if it is a RETURN and as many returns as calls have succeeded. -/
theorem calls_match_returns (program : Program) (input : Input) (output : Output) :
    (∀ caller moment : Nat,
      ((Machine.start input output).after program caller).Succeeds program .call →
      BackAt (fun other => ((Machine.start input output).after program other).calls.length)
        caller moment →
      ∃ last, moment = last + 1 ∧
        ((Machine.start input output).after program last).Succeeds program .ret ∧
        ((Machine.start input output).after program moment).calls =
          ((Machine.start input output).after program caller).calls ∧
        ((Machine.start input output).after program moment).pc =
          ((Machine.start input output).after program caller).pc + 1) ∧
    ∀ moment place : Nat,
      (((Machine.start input output).after program moment).step program).ending =
          some (.failed ⟨place, .emptyCallStack⟩) ↔
        place = ((Machine.start input output).after program moment).pc ∧
        program.opcodeAt? ((Machine.start input output).after program moment).pc = some .ret ∧
        (Machine.start input output).successes program .ret moment =
          (Machine.start input output).successes program .call moment := by
  generalize fresh : Machine.start input output = first
  constructor
  · intro caller moment called back
    obtain ⟨last, rfl⟩ := Nat.exists_eq_add_one_of_ne_zero (Nat.ne_zero_of_lt back.later)
    have level : ((first.after program last).next program).calls.length =
        (first.after program caller).calls.length := back.level
    have later : caller + 1 ≤ last := by
      have order := back.later
      have apart : caller ≠ last := by
        rintro rfl
        rw [calls_of_call called, List.length_cons] at level
        omega
      omega
    have stays := suffix_until_back called back last later (Nat.lt_succ_self last)
    refine ⟨last, rfl, ?_⟩
    change _ ∧ ((first.after program last).next program).calls = _ ∧
      ((first.after program last).next program).pc = _
    -- fewer calls are open than the step found, so it is neither another step nor a call
    cases calls_of_next program (first.after program last) with
    | same calls =>
      have deep := stays.length_le
      rw [← calls, level, List.length_cons] at deep
      omega
    | call _ calls =>
      have deep := stays.length_le
      rw [calls, List.length_cons] at level
      rw [List.length_cons] at deep
      omega
    | ret returned calls =>
      rw [calls, List.suffix_cons_iff] at stays
      rcases stays with whole | stays
      · obtain ⟨place, rest⟩ := List.cons.inj whole
        exact ⟨returned, rest.symm, place.symm⟩
      · have deep := stays.length_le
        rw [level, List.length_cons] at deep
        omega
  · intro moment place
    have count := calls_add_returns program first moment
    have none : first.calls = [] := by rw [← fresh]; rfl
    rw [none, List.length_nil, Nat.zero_add] at count
    rw [ending_eq_emptyCallStack_iff, ← List.length_eq_zero_iff]
    have balanced : (first.after program moment).calls.length = 0 ↔
        first.successes program .ret moment = first.successes program .call moment := by omega
    rw [balanced]

/-- A program with one subroutine that calls another, and a RETURN too many after both. -/
def nestedCalls : Program :=
  ⟨[⟨1, "CALL".toList, [⟨.label, ['a']⟩]⟩, ⟨2, "RETURN".toList, []⟩,
    ⟨3, "LABEL".toList, [⟨.label, ['a']⟩]⟩, ⟨4, "CALL".toList, [⟨.label, ['b']⟩]⟩,
    ⟨5, "RETURN".toList, []⟩, ⟨6, "LABEL".toList, [⟨.label, ['b']⟩]⟩, ⟨7, "RETURN".toList, []⟩],
    [(['a'], 2), (['b'], 5)]⟩

/-- The outer call is back after six steps, two of them in the inner subroutine, and the
RETURN that follows finds as many returns as calls. -/
theorem nested_calls_return :
    Program.build nestedCalls.instructions = .ok nestedCalls ∧
    ∃ run : Nat → Machine, run = (Machine.start ⟨[]⟩ .unbounded).after nestedCalls ∧
      (run 0).Succeeds nestedCalls .call ∧
      BackAt (fun other => (run other).calls.length) 0 6 ∧ (run 4).calls = [4, 1] ∧
      (∃ last, 6 = last + 1 ∧ (run last).Succeeds nestedCalls .ret ∧
        (run 6).calls = (run 0).calls ∧ (run 6).pc = (run 0).pc + 1) ∧
      ((run 6).step nestedCalls).ending = some (.failed ⟨1, .emptyCallStack⟩) := by
  have built : Program.build nestedCalls.instructions = .ok nestedCalls := by decide +kernel
  obtain ⟨matched, starved⟩ := calls_match_returns nestedCalls ⟨[]⟩ .unbounded
  generalize same : (Machine.start ⟨[]⟩ .unbounded).after nestedCalls = run at matched starved
  have called : (run 0).Succeeds nestedCalls .call := by
    rw [← same]
    decide +kernel
  have deeper : ∀ other < 6, 0 < other → (run other).calls.length ≠ (run 0).calls.length := by
    rw [← same]
    decide +kernel
  have closed : (run 6).calls.length = (run 0).calls.length := by
    rw [← same]
    decide +kernel
  have back : BackAt (fun other => (run other).calls.length) 0 6 :=
    ⟨by decide, closed, fun other after before => deeper other before after⟩
  refine ⟨built, run, rfl, called, back, ?_, matched 0 6 called back, ?_⟩
  · rw [← same]
    decide +kernel
  · refine (starved 6 1).mpr ?_
    rw [← same]
    decide +kernel

end IPPcode24
