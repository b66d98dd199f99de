import IPPcode24.Proofs.Moments
import IPPcode24.Proofs.Variables
import Mathlib.Data.List.DropRight

/-!
# Local frames

Variables are declared and assigned only in the local frame on top of the stack, so a step
moves the stack by at most one frame, and only at its top. What lies below a level stays as
it was while the stack is higher, whatever is executed in between, and a stack that is back
at a level for the first time after a PUSHFRAME is the one from before it.
-/

namespace IPPcode24

/-! ## Stacks over a run -/

/-- What one step can do to a stack: nothing, a change of its top, a push or a pop. -/
inductive StackStep {α : Type} : List α → List α → Prop where
  | same {stack : List α} : StackStep stack stack
  | top {old new : α} {rest : List α} : StackStep (old :: rest) (new :: rest)
  | push {new : α} {stack : List α} : StackStep stack (new :: stack)
  | pop {old : α} {rest : List α} : StackStep (old :: rest) rest

section Stacks

variable {α : Type}

theorem rtake_cons_of_le {stack : List α} {top : α} {low : Nat} (deep : low ≤ stack.length) :
    (top :: stack).rtake low = stack.rtake low := by
  rw [List.rtake, List.rtake, List.length_cons, Nat.succ_sub deep, List.drop_succ_cons]

theorem rtake_length (stack : List α) : stack.rtake stack.length = stack := by
  rw [List.rtake, Nat.sub_self, List.drop_zero]

theorem StackStep.length_le {stack next : List α} (step : StackStep stack next) :
    stack.length ≤ next.length + 1 := by
  cases step with
  | same => exact Nat.le_succ _
  | top => exact Nat.le_succ _
  | push => exact Nat.le_succ_of_le (Nat.le_succ _)
  | pop => exact le_rfl

theorem StackStep.rtake_eq {stack next : List α} {low : Nat} (step : StackStep stack next)
    (above : low < stack.length) : next.rtake low = stack.rtake low := by
  cases step with
  | same => rfl
  | top =>
    have deep := Nat.le_of_lt_succ above
    rw [rtake_cons_of_le deep, rtake_cons_of_le deep]
  | push => exact rtake_cons_of_le (Nat.le_of_lt above)
  | pop => exact (rtake_cons_of_le (Nat.le_of_lt_succ above)).symm

variable {history : Nat → List α}
  (steps : ∀ moment, StackStep (history moment) (history (moment + 1)))

include steps

theorem rtake_of_above {low first last : Nat} (order : first ≤ last)
    (above : ∀ moment, first ≤ moment → moment < last → low < (history moment).length) :
    (history last).rtake low = (history first).rtake low := by
  induction last, order using Nat.le_induction with
  | base => rfl
  | succ last order ih =>
    have below := ih fun moment after before => above moment after (Nat.lt_succ_of_lt before)
    rw [(steps last).rtake_eq (above last order (Nat.lt_succ_self last)), below]

/-- After a push the stack stays above the level until it is back at it, since no step
takes it down by more than one place. -/
theorem above_until_back {first moment : Nat}
    (pushed : (history (first + 1)).length = (history first).length + 1)
    (back : BackAt (fun other => (history other).length) first moment) (other : Nat)
    (after : first + 1 ≤ other) (before : other < moment) :
    (history first).length < (history other).length := by
  induction other, after using Nat.le_induction with
  | base => omega
  | succ other after ih =>
    have higher := ih (by omega)
    have falls := (steps other).length_le
    have avoids := back.between (other + 1) (by omega) before
    omega

/-- A stack that is back at a level for the first time after a push is the one from before
the push, and the last step has popped. -/
theorem stack_of_backAt {first moment : Nat} {new : α}
    (pushed : history (first + 1) = new :: history first)
    (back : BackAt (fun other => (history other).length) first moment) :
    history moment = history first ∧
      ∃ last, moment = last + 1 ∧ (history moment).length < (history last).length := by
  have rises : (history (first + 1)).length = (history first).length + 1 := by
    rw [pushed, List.length_cons]
  have above := above_until_back steps rises back
  have level : (history moment).length = (history first).length := back.level
  obtain ⟨last, rfl⟩ := Nat.exists_eq_add_one_of_ne_zero (Nat.ne_zero_of_lt back.later)
  have apart : first ≠ last := by
    rintro rfl
    omega
  have later : first + 1 ≤ last := by
    have := back.later
    omega
  refine ⟨?_, last, rfl, ?_⟩
  · calc history (last + 1)
      _ = (history (last + 1)).rtake (history first).length := by rw [← level, rtake_length]
      _ = (history (first + 1)).rtake (history first).length :=
          rtake_of_above steps (Nat.le_succ_of_le later) above
      _ = history first := by rw [pushed, rtake_cons_of_le le_rfl, rtake_length]
  · rw [level]
    exact above last later (Nat.lt_succ_self last)

end Stacks

/-! ## What a step does to the frames -/

/-- What an effect that succeeds does to the frames: nothing, or it rewrites one of them, or
makes, pushes or pops a frame. -/
inductive Reframes (frames : Frames) : Effect → Frames → Prop where
  | kept {effect : Effect} : Reframes frames effect frames
  | rewritten {effect : Effect} {tag : FrameTag} {old new : Frame}
      (present : frames.frame? tag = some old) :
      Reframes frames effect (frames.replace new tag)
  | create : Reframes frames .createFrame frames.create
  | push {next : Frames} (pushed : frames.push = .ok next) : Reframes frames .pushFrame next
  | pop {next : Frames} (popped : frames.pop = .ok next) : Reframes frames .popFrame next

section Effects

variable {machine : Machine}

theorem withFrames_frames {result : Except FrameError Frames} {events : Frames → List Event}
    {flow : Flow} (performed : (machine.withFrames result events).flow = .ok flow) :
    result = .ok (machine.withFrames result events).machine.frames := by
  cases result with
  | ok frames => rfl
  | error error => cases performed

theorem reframes_of_perform {effect : Effect} {flow : Flow}
    (performed : (machine.perform effect).flow = .ok flow) :
    Reframes machine.frames effect (machine.perform effect).machine.frames := by
  cases effect with
  | pass | jump _ | call _ | exit _ | print _ | inspect => exact .kept
  | define ref =>
    obtain ⟨frame, present, _, same⟩ := Frames.define_eq_ok (withFrames_frames performed)
    rw [Machine.perform, same]
    exact .rewritten present
  | assign ref value =>
    obtain ⟨frame, present, _, same⟩ := Frames.set_eq_ok (withFrames_frames performed)
    rw [Machine.perform, same]
    exact .rewritten present
  | createFrame => exact .create
  | pushFrame => exact .push (withFrames_frames performed)
  | popFrame => exact .pop (withFrames_frames performed)
  | read target kind =>
    rw [Machine.perform] at performed ⊢
    rcases readInto_cases machine target kind with
      ⟨crash, _, read⟩ | ⟨failure, _, read⟩ | ⟨value, ref, _, read⟩
    · rw [read] at performed
      cases performed
    · rw [read] at performed
      cases performed
    · rw [read] at performed ⊢
      obtain ⟨frame, present, _, same⟩ := Frames.set_eq_ok (withFrames_frames performed)
      rw [same]
      exact .rewritten present
  | write text =>
    simp only [Machine.perform]
    split <;> exact .kept
  | ret =>
    simp only [Machine.perform]
    split <;> exact .kept

theorem locals_replace {frames : Frames} {tag : FrameTag} {old : Frame}
    (present : frames.frame? tag = some old) (new : Frame) :
    (frames.replace new tag).locals = frames.locals ∨
      ∃ rest, frames.locals = old :: rest ∧ (frames.replace new tag).locals = new :: rest := by
  cases tag with
  | gf => exact Or.inl rfl
  | tf => exact Or.inl rfl
  | lf =>
    obtain ⟨rest, stacked⟩ := List.head?_eq_some_iff.mp present
    refine Or.inr ⟨rest, stacked, ?_⟩
    rw [Frames.replace, stacked]
    rfl

theorem Reframes.stackStep {frames next : Frames} {effect : Effect}
    (reframes : Reframes frames effect next) : StackStep frames.locals next.locals := by
  cases reframes with
  | kept => exact .same
  | @rewritten _ _ _ new present =>
    rcases locals_replace present new with same | ⟨rest, before, after⟩
    · rw [same]
      exact .same
    · rw [before, after]
      exact .top
  | create => exact .same
  | push pushed =>
    obtain ⟨⟨frame, stacked⟩, _⟩ := Frames.push_eq_ok pushed
    rw [stacked]
    exact .push
  | pop popped =>
    obtain ⟨frame, stacked⟩ := Frames.pop_eq_ok popped
    rw [stacked]
    exact .pop

theorem Reframes.eq_popFrame {frames next : Frames} {effect : Effect}
    (reframes : Reframes frames effect next) (fewer : next.locals.length < frames.locals.length) :
    effect = .popFrame := by
  cases reframes with
  | kept => exact absurd fewer (Nat.lt_irrefl _)
  | @rewritten _ _ _ new present =>
    rcases locals_replace present new with same | ⟨rest, before, after⟩
    · rw [same] at fewer
      exact absurd fewer (Nat.lt_irrefl _)
    · rw [before, after] at fewer
      exact absurd fewer (Nat.lt_irrefl _)
  | create => exact absurd fewer (Nat.lt_irrefl _)
  | push pushed =>
    obtain ⟨⟨frame, stacked⟩, _⟩ := Frames.push_eq_ok pushed
    rw [stacked, List.length_cons] at fewer
    omega
  | pop => rfl

end Effects

section Steps

variable {program : Program} {machine : Machine}

theorem reframes_of_step (runs : (machine.step program).ending = none) :
    ∃ (instruction : Instruction) (opcode : Opcode) (effect : Effect),
      machine.Succeeds program opcode ∧
      opcode.plan program.labels machine.frames instruction.operands = .ok effect ∧
      Reframes machine.frames effect (machine.next program).frames := by
  obtain ⟨instruction, opcode, effect, flow, succeeds, performs⟩ := exists_performs runs
  refine ⟨instruction, opcode, effect, succeeds, performs.planned, ?_⟩
  rw [next_frames, performs.settled, Flow.settle_frames]
  exact reframes_of_perform performs.performed

theorem frames_of_ended {ending : Ending} (ended : (machine.step program).ending = some ending) :
    (machine.next program).frames = machine.frames := by
  obtain ⟨input, output, same, _⟩ := machine_of_ended ended
  rw [next_frames, same]

/-- A step of any kind, also one that fails, touches only the top of the stack of local
frames. -/
theorem stackStep_of_next (program : Program) (machine : Machine) :
    StackStep machine.frames.locals (machine.next program).frames.locals := by
  cases ended : (machine.step program).ending with
  | some ending =>
    rw [frames_of_ended ended]
    exact .same
  | none =>
    obtain ⟨_, _, _, _, _, reframes⟩ := reframes_of_step ended
    exact reframes.stackStep

theorem popFrame_of_fewer_locals (fewer : (machine.next program).frames.locals.length <
    machine.frames.locals.length) : machine.Succeeds program .popFrame := by
  cases ended : (machine.step program).ending with
  | some ending =>
    rw [frames_of_ended ended] at fewer
    exact absurd fewer (Nat.lt_irrefl _)
  | none =>
    obtain ⟨instruction, opcode, effect, succeeds, planned, reframes⟩ := reframes_of_step ended
    obtain rfl := reframes.eq_popFrame fewer
    obtain rfl := (plan_eq_ok_iff_of_bare .popFrame).mp planned
    exact succeeds

theorem push_of_succeeds (pushed : machine.Succeeds program .pushFrame) :
    machine.frames.push = .ok (machine.next program).frames ∧
      (machine.next program).pc = machine.pc + 1 := by
  obtain ⟨instruction, flow, performs⟩ := pushed.performs_of_bare .pushFrame
  have performed := performs.performed
  obtain rfl := withFrames_flow performed
  rw [next_of_going pushed.runs, performs.settled, Flow.settle_frames]
  refine ⟨withFrames_frames performed, ?_⟩
  change (machine.counted.perform .pushFrame).machine.pc + 1 = _
  rw [perform_pc]
  rfl

theorem succeeds_popFrame {frames : Frames} (next : program.opcodeAt? machine.pc = some .popFrame)
    (popped : machine.frames.pop = .ok frames) :
    machine.Succeeds program .popFrame ∧ (machine.next program).frames = frames := by
  obtain ⟨instruction, dispatched⟩ := opcodeAt?_eq_some_iff.mp next
  have planned : Opcode.popFrame.plan program.labels machine.frames instruction.operands =
      .ok .popFrame := (plan_eq_ok_iff_of_bare .popFrame).mpr rfl
  have performed : (machine.counted.perform .popFrame).flow = .ok .next := by
    simp only [Machine.perform, Machine.counted, popped, Machine.withFrames]
  have runs : (machine.step program).ending = none := by
    rw [ending_of_planned dispatched planned]
    exact (Performed.settle_of_ok performed).2
  have succeeds : machine.Succeeds program .popFrame := ⟨next, runs⟩
  refine ⟨succeeds, ?_⟩
  obtain ⟨_, flow, performs⟩ := succeeds.performs_of_bare .popFrame
  rw [next_frames, performs.settled, Flow.settle_frames]
  have given : machine.frames.pop = .ok (machine.counted.perform .popFrame).machine.frames :=
    withFrames_frames performs.performed
  exact Except.ok.inj (given.symm.trans popped)

end Steps

/-- While there are more local frames than a level, the frames below the level stay what they
are, whatever is executed and however often the run ends. After a PUSHFRAME and up to the
first moment at which there are as many local frames as before, the last step is a POPFRAME
that gives back the local frames from before, so that every local variable reads as before.
A POPFRAME right after a PUSHFRAME gives back all frames. -/
theorem local_frames_isolated (program : Program) (first : Machine) :
    (∀ low count : Nat,
      (∀ moment < count, low < (first.after program moment).frames.locals.length) →
      (first.after program count).frames.locals.rtake low = first.frames.locals.rtake low) ∧
    (first.Succeeds program .pushFrame →
      (∀ moment : Nat,
        BackAt (fun other => (first.after program other).frames.locals.length) 0 moment →
        ∃ last, moment = last + 1 ∧ (first.after program last).Succeeds program .popFrame ∧
          (first.after program moment).frames.locals = first.frames.locals ∧
          ∀ name : Text, (first.after program moment).frames.get ⟨.lf, name⟩ =
            first.frames.get ⟨.lf, name⟩) ∧
      (program.opcodeAt? (first.pc + 1) = some .popFrame →
        (first.after program 1).Succeeds program .popFrame ∧
        (first.after program 2).frames = first.frames)) := by
  have steps (moment : Nat) : StackStep (first.after program moment).frames.locals
      (first.after program (moment + 1)).frames.locals :=
    stackStep_of_next program (first.after program moment)
  refine ⟨?_, fun pushed => ⟨?_, ?_⟩⟩
  · intro low count above
    exact rtake_of_above steps (Nat.zero_le count) fun moment _ before => above moment before
  · intro moment back
    obtain ⟨⟨frame, pushedOn⟩, _⟩ := Frames.push_eq_ok (push_of_succeeds pushed).1
    have stacked : (first.after program (0 + 1)).frames.locals =
        frame :: (first.after program 0).frames.locals := pushedOn
    obtain ⟨same, last, rfl, fewer⟩ := stack_of_backAt steps stacked back
    refine ⟨last, rfl, popFrame_of_fewer_locals fewer, same, ?_⟩
    intro name
    have top : (first.after program (last + 1)).frames.frame? .lf = first.frames.frame? .lf :=
      congrArg List.head? same
    simp only [Frames.get, top]
  · intro next
    obtain ⟨moved, place⟩ := push_of_succeeds pushed
    obtain ⟨_, restores⟩ := Frames.push_eq_ok moved
    rw [← place] at next
    exact succeeds_popFrame next restores

/-- A program that pushes a frame with a variable, and on it one with a variable of the same
name. -/
def shadowing : Program :=
  ⟨[⟨1, "CREATEFRAME".toList, []⟩, ⟨2, "DEFVAR".toList, [⟨.var, "TF@x".toList⟩]⟩,
    ⟨3, "MOVE".toList, [⟨.var, "TF@x".toList⟩, ⟨.literal .int, ['1']⟩]⟩,
    ⟨4, "PUSHFRAME".toList, []⟩, ⟨5, "CREATEFRAME".toList, []⟩, ⟨6, "PUSHFRAME".toList, []⟩,
    ⟨7, "DEFVAR".toList, [⟨.var, "LF@x".toList⟩]⟩,
    ⟨8, "MOVE".toList, [⟨.var, "LF@x".toList⟩, ⟨.literal .int, ['2']⟩]⟩,
    ⟨9, "POPFRAME".toList, []⟩, ⟨10, "PUSHFRAME".toList, []⟩, ⟨11, "POPFRAME".toList, []⟩], []⟩

/-- The machine at the inner PUSHFRAME. -/
def beforeShadow : Machine := (Machine.start ⟨[]⟩ .unbounded).after shadowing 5

/-- The outer variable is hidden for as long as the inner frame is there, and reads as before
when it is gone. -/
theorem shadowed_local_comes_back :
    beforeShadow.Succeeds shadowing .pushFrame ∧
    beforeShadow.frames.get ⟨.lf, ['x']⟩ = .ok (.int 1) ∧
    (beforeShadow.after shadowing 3).frames.get ⟨.lf, ['x']⟩ = .ok (.int 2) ∧
    ((beforeShadow.after shadowing 1).after shadowing 2).frames.locals.rtake 1 =
      (beforeShadow.after shadowing 1).frames.locals.rtake 1 ∧
    (beforeShadow.after shadowing 4).frames.get ⟨.lf, ['x']⟩ =
      beforeShadow.frames.get ⟨.lf, ['x']⟩ ∧
    ((beforeShadow.after shadowing 4).after shadowing 2).frames =
      (beforeShadow.after shadowing 4).frames := by
  have pushed : beforeShadow.Succeeds shadowing .pushFrame := by decide +kernel
  have pushedAgain : (beforeShadow.after shadowing 4).Succeeds shadowing .pushFrame := by
    decide +kernel
  have hidden : ∀ other < 4, 0 < other →
      (beforeShadow.after shadowing other).frames.locals.length ≠
        beforeShadow.frames.locals.length := by decide +kernel
  have back : BackAt (fun other => (beforeShadow.after shadowing other).frames.locals.length)
      0 4 := ⟨by decide, by decide +kernel, fun other after before => hidden other before after⟩
  have above : ∀ moment < 2, 1 <
      ((beforeShadow.after shadowing 1).after shadowing moment).frames.locals.length := by
    decide +kernel
  obtain ⟨_, _, _, _, reads⟩ := ((local_frames_isolated shadowing beforeShadow).2 pushed).1 4 back
  obtain ⟨_, restored⟩ := ((local_frames_isolated shadowing _).2 pushedAgain).2 (by decide +kernel)
  exact ⟨pushed, by decide +kernel, by decide +kernel,
    (local_frames_isolated shadowing _).1 1 2 above, reads ['x'], restored⟩

end IPPcode24
