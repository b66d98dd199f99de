import IPPcode24.Proofs.Building
import IPPcode24.Proofs.Relocation

/-!
# Idle instructions

A BREAK or a DPRINT of a symbol only tells something. When such instructions are left out
of a program, those behind them move up, and with them the labels and the places to return
to. The run of the shorter program shadows that of the longer one: it is at the moved place
and agrees in everything but the count of steps. An instruction that is left out is a step
that the shadow does not make, and there are never more of them in a row than the program
has instructions.
-/

namespace IPPcode24

/-- The instruction only tells something: it is a BREAK, or a DPRINT of a symbol. -/
inductive Instruction.IsIdle (instruction : Instruction) : Prop where
  | breakpoint (known : instruction.opcode? = some .breakpoint) : IsIdle instruction
  | dprint {symbol : Operand} {rest : List Operand} (known : instruction.opcode? = some .dprint)
      (operands : instruction.operands = symbol :: rest)
      (isSymbol : symbol.operandClass.isSymbol = true) : IsIdle instruction

def without (dropped : Instruction → Bool) (records : List Instruction) : List Instruction :=
  records.filter fun record => !dropped record

/-- The place less the number of dropped instructions before it. -/
def placeWithout (dropped : Instruction → Bool) (instructions : List Instruction)
    (place : Nat) : Nat :=
  place - (instructions.take place).countP dropped

def DroppedAt (dropped : Instruction → Bool) (instructions : List Instruction)
    (place : Nat) : Prop :=
  ∃ instruction, instructions[place]? = some instruction ∧ dropped instruction = true

/-- The other machine is at the mapped place, has the mapped places to return to, and agrees
with the machine but for the count of steps. -/
structure Shadows (place : Nat → Nat) (machine other : Machine) : Prop where
  frames : other.frames = machine.frames
  calls : other.calls = machine.calls.map place
  pc : other.pc = place machine.pc
  input : other.input = machine.input
  output : other.output = machine.output

/-- The executions end in the same way, the one at the mapped place of the other. -/
structure SameOutcome (place : Nat → Nat) (execution other : Execution) : Prop where
  ending : other.ending = execution.ending.relocated place
  machine : Shadows place execution.machine other.machine

/-! ## Places without the dropped instructions -/

section Places

variable {dropped : Instruction → Bool} {instructions : List Instruction}
  {instruction : Instruction} {index : Nat}

theorem countP_take_le (dropped : Instruction → Bool) (instructions : List Instruction)
    (index : Nat) : (instructions.take index).countP dropped ≤ index := by
  have counted : (instructions.take index).countP dropped ≤ (instructions.take index).length :=
    List.countP_le_length
  have taken := List.length_take_le index instructions
  omega

theorem countP_take_succ (found : instructions[index]? = some instruction) :
    (instructions.take (index + 1)).countP dropped =
      (instructions.take index).countP dropped + if dropped instruction = true then 1 else 0 := by
  rw [List.take_add_one, found, List.countP_append, Option.toList_some, List.countP_singleton]

theorem placeWithout_of_dropped (found : instructions[index]? = some instruction)
    (drops : dropped instruction = true) :
    placeWithout dropped instructions (index + 1) = placeWithout dropped instructions index := by
  rw [placeWithout, placeWithout, countP_take_succ found, if_pos drops]
  omega

theorem placeWithout_of_kept (found : instructions[index]? = some instruction)
    (keeps : ¬ dropped instruction = true) :
    placeWithout dropped instructions (index + 1) =
      placeWithout dropped instructions index + 1 := by
  have bound := countP_take_le dropped instructions index
  rw [placeWithout, placeWithout, countP_take_succ found, if_neg keeps]
  omega

/-- The instructions before a place that are not dropped come before its new place. -/
theorem length_without_take (within : index ≤ instructions.length) :
    (without dropped (instructions.take index)).length =
      placeWithout dropped instructions index := by
  have all := List.length_eq_countP_add_countP dropped (l := instructions.take index)
  simp only [List.length_take_of_le within, decide_not, Bool.decide_eq_true] at all
  rw [without, ← List.countP_eq_length_filter, placeWithout]
  omega

theorem getElem?_without_of_kept (found : instructions[index]? = some instruction)
    (keeps : ¬ dropped instruction = true) :
    (without dropped instructions)[placeWithout dropped instructions index]? =
      some instruction := by
  obtain ⟨bound, rfl⟩ := List.getElem?_eq_some_iff.mp found
  have split : without dropped instructions = without dropped (instructions.take index) ++
      instructions[index] :: without dropped (instructions.drop (index + 1)) := by
    have parts : instructions =
        instructions.take index ++ instructions[index] :: instructions.drop (index + 1) := by
      rw [← List.drop_eq_getElem_cons bound, List.take_append_drop]
    have kept : (!dropped instructions[index]) = true := by simpa using keeps
    have filtered := congrArg (without dropped) parts
    simpa only [without, List.filter_append, List.filter_cons, kept, if_true] using filtered
  rw [split, ← length_without_take (Nat.le_of_lt bound)]
  simp

theorem getElem?_without_of_none (past : instructions[index]? = none) :
    (without dropped instructions)[placeWithout dropped instructions index]? = none := by
  rw [List.getElem?_eq_none_iff] at past ⊢
  have last : (without dropped instructions).length =
      placeWithout dropped instructions instructions.length := by
    rw [← length_without_take (Nat.le_refl _), List.take_length]
  rw [last, placeWithout, placeWithout, List.take_length, List.take_of_length_le past]
  omega

end Places

/-! ## Steps -/

section Steps

variable {program : Program} {machine : Machine}

/-- A step at an idle instruction goes on to the next one and changes nothing else. -/
theorem step_of_idle {instruction : Instruction}
    (found : program.instructions[machine.pc]? = some instruction) (idle : instruction.IsIdle) :
    (machine.step program).ending = none ∧
      (machine.step program).machine = { machine.counted with pc := machine.pc + 1 } := by
  cases idle with
  | breakpoint known =>
    have dispatched : Dispatches program machine instruction .breakpoint := ⟨found, known⟩
    have planned : Opcode.breakpoint.plan program.labels machine.frames instruction.operands =
        .ok .inspect := (plan_eq_ok_iff_of_bare .inspect).mpr rfl
    rw [step_of_dispatches dispatched, Machine.execute]
    simp only [Machine.counted, planned]
    exact ⟨rfl, rfl⟩
  | @dprint symbol rest known operands isSymbol =>
    have dispatched : Dispatches program machine instruction .dprint := ⟨found, known⟩
    have accepted : checkOperands .dprint (symbol :: rest) = .ok () :=
      checkOperands_eq_ok.mpr ⟨Nat.le_add_left _ _, fill_cons.mpr ⟨isSymbol, .nil rest⟩⟩
    have planned : Opcode.dprint.plan program.labels machine.frames instruction.operands =
        .ok (.print symbol) := by
      rw [operands, Opcode.plan_of_checked accepted]
      rfl
    rw [step_of_dispatches dispatched, Machine.execute]
    simp only [Machine.counted, planned]
    exact ⟨rfl, rfl⟩

def Machine.recounted (count : Nat) (machine : Machine) : Machine :=
  { machine with steps := count }

/-- The performed steps agree but for what they told and the count of steps. -/
structure Recounted (count : Nat) (performed other : Performed) : Prop where
  machine : other.machine = performed.machine.recounted count
  flow : other.flow = performed.flow

theorem recounted_withFrames (count : Nat) (machine : Machine) (result : Except FrameError Frames)
    (events eventsToo : Frames → List Event) :
    Recounted count (machine.withFrames result events)
      ((machine.recounted count).withFrames result eventsToo) := by
  cases result with
  | ok frames => exact ⟨rfl, rfl⟩
  | error error => exact ⟨rfl, rfl⟩

theorem recounted_readInto (count : Nat) (machine : Machine) (target : Operand) (kind : Kind) :
    Recounted count (machine.readInto target kind)
      ((machine.recounted count).readInto target kind) := by
  have sameInput : (machine.recounted count).input = machine.input := rfl
  simp only [Machine.readInto, sameInput]
  cases machine.input.read kind with
  | mk answer input =>
    cases answer with
    | error crash => exact ⟨rfl, rfl⟩
    | ok value? =>
      cases target.reference with
      | error failure => exact ⟨rfl, rfl⟩
      | ok ref => exact recounted_withFrames count { machine with input } _ _ _

theorem recounted_perform (count : Nat) (machine : Machine) (effect : Effect) :
    Recounted count (machine.perform effect) ((machine.recounted count).perform effect) := by
  cases effect with
  | pass | jump _ | call _ | exit _ | print _ | inspect => exact ⟨rfl, rfl⟩
  | createFrame => exact ⟨rfl, rfl⟩
  | define _ | assign _ _ | pushFrame | popFrame =>
    exact recounted_withFrames count machine _ _ _
  | read target kind => exact recounted_readInto count machine target kind
  | write text =>
    have sameOutput : (machine.recounted count).output = machine.output := rfl
    simp only [perform_write, sameOutput]
    cases (machine.output.write text).1 <;> exact ⟨rfl, rfl⟩
  | ret =>
    have sameCalls : (machine.recounted count).calls = machine.calls := rfl
    simp only [Machine.perform, sameCalls]
    cases machine.calls <;> exact ⟨rfl, rfl⟩

theorem recounted_execute (count : Nat) (machine : Machine) (labels : LabelTable)
    (opcode : Opcode) (operands : List Operand) :
    Recounted count (machine.execute labels opcode operands)
      ((machine.recounted count).execute labels opcode operands) := by
  have sameFrames : (machine.recounted count).frames = machine.frames := rfl
  rw [Machine.execute, Machine.execute, sameFrames]
  cases opcode.plan labels machine.frames operands with
  | error failure => exact ⟨rfl, rfl⟩
  | ok effect => exact recounted_perform count machine effect

theorem Recounted.settle {count : Nat} {performed other : Performed}
    (recounted : Recounted count performed other) :
    other.settle.ending = performed.settle.ending ∧
      other.settle.machine = performed.settle.machine.recounted count := by
  rw [Performed.settle, Performed.settle, recounted.machine, recounted.flow]
  cases performed.flow with
  | error failure => cases failure <;> exact ⟨rfl, rfl⟩
  | ok flow => cases flow <;> exact ⟨rfl, rfl⟩

/-- A step does the same whatever the count of steps is, and counts on from there. -/
theorem step_recounted (count : Nat) (program : Program) (machine : Machine) :
    ((machine.recounted count).step program).ending = (machine.step program).ending ∧
      ∃ later, ((machine.recounted count).step program).machine =
        (machine.step program).machine.recounted later := by
  have samePlace : (machine.recounted count).pc = machine.pc := rfl
  cases fetched : program.instructions[machine.pc]? with
  | none =>
    rw [Machine.step, Machine.step, samePlace, fetched]
    exact ⟨rfl, count, rfl⟩
  | some instruction =>
    cases known : instruction.opcode? with
    | none =>
      simp only [Machine.step, samePlace, fetched, known, true_and]
      exact ⟨count, rfl⟩
    | some opcode =>
      have dispatched : Dispatches program machine instruction opcode := ⟨fetched, known⟩
      have dispatchedToo : Dispatches program (machine.recounted count) instruction opcode :=
        ⟨fetched, known⟩
      obtain ⟨ending, counted⟩ := (recounted_execute (count + 1) machine.counted program.labels
        opcode instruction.operands).settle
      rw [step_of_dispatches dispatched, step_of_dispatches dispatchedToo]
      exact ⟨ending, count + 1, counted⟩

end Steps

/-! ## Shadows -/

/-- The other program is the program without the instructions at the skipped places, all of
them idle. Their places are given to the next instructions. -/
structure Drops (program other : Program) (place : Nat → Nat) (skipped : Nat → Prop) : Prop where
  labels : SameLabels program other place
  kept : ∀ index, ¬ skipped index → SameAt program other place index
  idle : ∀ index, skipped index →
    ∃ instruction, program.instructions[index]? = some instruction ∧ instruction.IsIdle
  closes : ∀ index, skipped index → place (index + 1) = place index

section Shadows

variable {place : Nat → Nat} {machine shadow : Machine}

theorem shadows_iff :
    Shadows place machine shadow ↔ shadow = (machine.relocated place).recounted shadow.steps := by
  constructor
  · rintro ⟨frames, calls, pc, input, output⟩
    obtain ⟨_, _, _, steps, _, _⟩ := shadow
    cases frames
    cases calls
    cases pc
    cases input
    cases output
    rfl
  · intro same
    rw [same]
    exact ⟨rfl, rfl, rfl, rfl, rfl⟩

theorem Shadows.flushed (shadows : Shadows place machine shadow) (reached : Ending) :
    shadow.flushed (reached.relocated place) = (machine.flushed reached).relocated place := by
  have uncounted (machine : Machine) (count : Nat) (ending : Ending) :
      (machine.recounted count).flushed ending = machine.flushed ending := by
    cases ending <;> rfl
  rw [shadows_iff.mp shadows, uncounted, flushed_relocated]

theorem Shadows.closed (shadows : Shadows place machine shadow) (reached : Ending) :
    Shadows place (machine.closed reached) (shadow.closed (reached.relocated place)) := by
  rw [shadows_iff.mp shadows]
  cases reached <;> exact ⟨rfl, rfl, rfl, rfl, rfl⟩

end Shadows

namespace Drops

variable {program other : Program} {place : Nat → Nat} {skipped : Nat → Prop}
  {first machine shadow : Machine}

/-- The shadow makes the step of the machine too, unless its instruction is skipped. -/
theorem step_of_kept (drops : Drops program other place skipped)
    (shadows : Shadows place machine shadow) (kept : ¬ skipped machine.pc) :
    (shadow.step other).ending = (machine.step program).ending.map (Ending.relocated place) ∧
      Shadows place (machine.step program).machine (shadow.step other).machine := by
  have steps := step_relocated drops.labels (drops.kept machine.pc kept)
  obtain ⟨ending, count, same⟩ := step_recounted shadow.steps other (machine.relocated place)
  rw [← shadows_iff.mp shadows, steps] at ending same
  refine ⟨ending, ?_⟩
  rw [same]
  exact ⟨rfl, rfl, rfl, rfl, rfl⟩

/-- The shadow waits while the machine makes the step of a skipped instruction. -/
theorem step_of_skipped (drops : Drops program other place skipped)
    (shadows : Shadows place machine shadow) (next : skipped machine.pc) :
    (machine.step program).ending = none ∧
      (machine.step program).machine.pc = machine.pc + 1 ∧
      Shadows place (machine.step program).machine shadow := by
  obtain ⟨instruction, found, idle⟩ := drops.idle machine.pc next
  obtain ⟨runs, same⟩ := step_of_idle found idle
  rw [same]
  refine ⟨runs, rfl, shadows.frames, shadows.calls, ?_, shadows.input, shadows.output⟩
  rw [shadows.pc]
  exact (drops.closes machine.pc next).symm

/-- The machine passes the skipped instructions that come next. -/
theorem exists_caught_up (drops : Drops program other place skipped)
    (passed : Passes program first machine) (shadows : Shadows place machine shadow) :
    ∃ later, Passes program first later ∧ Shadows place later shadow ∧ ¬ skipped later.pc := by
  -- the instructions that are left in the program bound the number of steps
  induction left : program.size - machine.pc using Nat.strongRecOn generalizing machine with
  | ind left ih =>
    by_cases next : skipped machine.pc
    · obtain ⟨runs, moved, shadowsToo⟩ := drops.step_of_skipped shadows next
      obtain ⟨instruction, found, _⟩ := drops.idle machine.pc next
      have within : machine.pc < program.size := (List.getElem?_eq_some_iff.mp found).1
      exact ih _ (by omega) (.step passed runs) shadowsToo rfl
    · exact ⟨machine, passed, shadows, next⟩

/-- Every machine that the program passes has a shadow that the shorter program passes. -/
theorem exists_shadow (drops : Drops program other place skipped) {start : Machine}
    (starts : Shadows place first start) (passed : Passes program first machine) :
    ∃ shadow, Passes other start shadow ∧ Shadows place machine shadow := by
  induction passed with
  | start => exact ⟨start, .start, starts⟩
  | @step machine _ runs ih =>
    obtain ⟨shadow, passed, shadows⟩ := ih
    by_cases next : skipped machine.pc
    · exact ⟨shadow, passed, (drops.step_of_skipped shadows next).2.2⟩
    · obtain ⟨sameEnding, shadowsToo⟩ := drops.step_of_kept shadows next
      rw [runs] at sameEnding
      exact ⟨_, .step passed sameEnding, shadowsToo⟩

/-- Every machine that the shorter program passes is the shadow of one that the program
passes, at an instruction that is not skipped. -/
theorem exists_shadowed (drops : Drops program other place skipped) {start : Machine}
    (starts : Shadows place first start) (passed : Passes other start shadow) :
    ∃ machine, Passes program first machine ∧ Shadows place machine shadow ∧
      ¬ skipped machine.pc := by
  induction passed with
  | start => exact drops.exists_caught_up .start starts
  | @step shadow _ runs ih =>
    obtain ⟨machine, passed, shadows, kept⟩ := ih
    obtain ⟨sameEnding, shadowsToo⟩ := drops.step_of_kept shadows kept
    have runsToo : (machine.step program).ending = none :=
      Option.map_eq_none_iff.mp (sameEnding.symm.trans runs)
    exact drops.exists_caught_up (.step passed runsToo) shadowsToo

/-! ## Executions -/

theorem exists_shorter_execution (drops : Drops program other place skipped) {start : Machine}
    (starts : Shadows place first start) {fuel : Nat} {execution : Execution}
    (executed : first.execution? fuel program = some execution) :
    ∃ fuelToo shorter, start.execution? fuelToo other = some shorter ∧
      SameOutcome place execution shorter := by
  obtain ⟨last, passed, same, reached, ended, flushed⟩ := exists_passes_of_execution executed
  obtain ⟨shadow, passedToo, shadows⟩ := drops.exists_shadow starts passed
  have kept : ¬ skipped last.pc := by
    intro next
    rw [(drops.step_of_skipped shadows next).1] at ended
    cases ended
  obtain ⟨sameEnding, shadowsToo⟩ := drops.step_of_kept shadows kept
  rw [ended] at sameEnding
  obtain ⟨fuelToo, shorter, executedToo, sameToo, flushedToo⟩ :=
    exists_execution_of_passes passedToo sameEnding
  refine ⟨fuelToo, shorter, executedToo, ?_, ?_⟩
  · rw [flushed, flushedToo]
    exact shadowsToo.flushed reached
  · rw [same, sameToo, next_of_ended ended, next_of_ended sameEnding]
    exact shadowsToo.closed reached

theorem exists_longer_execution (drops : Drops program other place skipped) {start : Machine}
    (starts : Shadows place first start) {fuel : Nat} {shorter : Execution}
    (executed : start.execution? fuel other = some shorter) :
    ∃ fuelToo execution, first.execution? fuelToo program = some execution := by
  obtain ⟨shadow, passed, _, reached, ended, _⟩ := exists_passes_of_execution executed
  obtain ⟨last, passedToo, shadows, kept⟩ := drops.exists_shadowed starts passed
  obtain ⟨sameEnding, _⟩ := drops.step_of_kept shadows kept
  rw [ended] at sameEnding
  obtain ⟨reachedToo, endedToo, _⟩ := Option.map_eq_some_iff.mp sameEnding.symm
  obtain ⟨fuelToo, execution, executedToo, _⟩ := exists_execution_of_passes passedToo endedToo
  exact ⟨fuelToo, execution, executedToo⟩

end Drops

/-! ## Records without the dropped ones -/

section Building

variable {dropped : Instruction → Bool} {records instructions : List Instruction}
  {program : Program}

theorem arranges_without (arranged : Arranges records instructions)
    (dropped : Instruction → Bool) :
    Arranges (without dropped records) (without dropped instructions) :=
  ⟨arranged.perm.filter _, arranged.ascending.filter _⟩

theorem properLabels_without (proper : ProperLabels records) (dropped : Instruction → Bool) :
    ProperLabels (without dropped records) := by
  refine ⟨?_, proper.distinct.filter _⟩
  intro record member
  exact proper.formed record (List.mem_of_mem_filter member)

theorem Instruction.IsIdle.not_isLabel {instruction : Instruction} (idle : instruction.IsIdle) :
    ¬ instruction.isLabel = true := by
  intro isLabel
  have known := Instruction.isLabel_iff.mp isLabel
  cases idle with
  | breakpoint knownToo | dprint knownToo =>
    rw [known] at knownToo
    cases knownToo

theorem drops_of_without {other : Program}
    (exact : program.labels.Exact program.instructions)
    (exactOther : other.labels.Exact other.instructions)
    (shorter : other.instructions = without dropped program.instructions)
    (idle : ∀ instruction ∈ program.instructions,
      dropped instruction = true → instruction.IsIdle) :
    Drops program other (placeWithout dropped program.instructions)
      (DroppedAt dropped program.instructions) := by
  constructor
  · apply sameLabels_of_exact exact exactOther
    · intro index instruction found isLabel
      have keeps : ¬ dropped instruction = true := by
        intro drop
        exact (idle instruction (List.mem_of_getElem? found) drop).not_isLabel isLabel
      rw [shorter]
      exact getElem?_without_of_kept found keeps
    · intro instruction member
      rw [shorter] at member
      exact List.mem_of_mem_filter member
  · intro index kept
    cases found : program.instructions[index]? with
    | none =>
      constructor
      · rw [shorter, getElem?_without_of_none found, found]
      · intro opcode next
        rw [Program.opcodeAt?, found] at next
        cases next
    | some instruction =>
      have keeps : ¬ dropped instruction = true := fun drop => kept ⟨instruction, found, drop⟩
      constructor
      · rw [shorter, getElem?_without_of_kept found keeps, found]
      · intro opcode _ _
        exact placeWithout_of_kept found keeps
  · rintro index ⟨instruction, found, drop⟩
    exact ⟨instruction, found, idle instruction (List.mem_of_getElem? found) drop⟩
  · rintro index ⟨instruction, found, drop⟩
    exact placeWithout_of_dropped found drop

theorem exists_drops (built : Program.build records = .ok program)
    (idle : ∀ record ∈ records, dropped record = true → record.IsIdle) :
    ∃ other, Program.build (without dropped records) = .ok other ∧
      Drops program other (placeWithout dropped program.instructions)
        (DroppedAt dropped program.instructions) := by
  have arranged := arranges_of_build built
  have exact := exact_of_build built
  have shorter := arranges_without arranged dropped
  have proper := properLabels_without ((properLabels_perm_iff arranged.perm).mp exact.properLabels)
    dropped
  obtain ⟨other, builtOther⟩ := shorter.exists_build proper
  refine ⟨other, builtOther, drops_of_without exact (exact_of_build builtOther) ?_ ?_⟩
  · rw [(arranges_of_build builtOther).eq_sorted, shorter.eq_sorted]
  · intro instruction member
    exact idle instruction (arranged.perm.mem_iff.mp member)

end Building

/-- Records that build do so without any of their idle ones. On every input the longer
program comes to its end exactly if the shorter one does. Then both end in the same way, with
the same frames, input and output, and the place of an error and the places to return to are
less by the number of dropped instructions before them. -/
theorem idle_records_can_be_dropped {records : List Instruction} {program : Program}
    {dropped : Instruction → Bool} (built : Program.build records = .ok program)
    (idle : ∀ record ∈ records, dropped record = true → record.IsIdle) :
    ∃ other, Program.build (without dropped records) = .ok other ∧
      ∀ (input : Input) (output : Output),
        ((∃ fuel execution,
            (Machine.start input output).execution? fuel program = some execution) ↔
          ∃ fuel execution,
            (Machine.start input output).execution? fuel other = some execution) ∧
        ∀ {fuel fuelToo : Nat} {execution shorter : Execution},
          (Machine.start input output).execution? fuel program = some execution →
          (Machine.start input output).execution? fuelToo other = some shorter →
            SameOutcome (placeWithout dropped program.instructions) execution shorter := by
  obtain ⟨other, builtOther, drops⟩ := exists_drops built idle
  refine ⟨other, builtOther, ?_⟩
  intro input output
  have starts : Shadows (placeWithout dropped program.instructions) (.start input output)
      (.start input output) := ⟨rfl, rfl, (Nat.zero_sub _).symm, rfl, rfl⟩
  constructor
  · constructor
    · rintro ⟨fuel, execution, executed⟩
      obtain ⟨fuelToo, shorter, executedToo, _⟩ := drops.exists_shorter_execution starts executed
      exact ⟨fuelToo, shorter, executedToo⟩
    · rintro ⟨fuel, shorter, executed⟩
      exact drops.exists_longer_execution starts executed
  · intro fuel fuelToo execution shorter executed executedToo
    obtain ⟨enough, ended, executedShorter, same⟩ :=
      drops.exists_shorter_execution starts executed
    rw [execution?_unique executedShorter executedToo]
    exact same

/-- A call that returns to a BREAK, an exit with a code that is too large, and a subroutine
with a DPRINT. -/
def telling : List Instruction :=
  [⟨1, "CALL".toList, [⟨.label, ['s']⟩]⟩, ⟨2, "BREAK".toList, []⟩,
    ⟨3, "EXIT".toList, [⟨.literal .int, ['1', '2']⟩]⟩, ⟨4, "LABEL".toList, [⟨.label, ['s']⟩]⟩,
    ⟨5, "DPRINT".toList, [⟨.literal .string, ['x']⟩]⟩, ⟨6, "RETURN".toList, []⟩]

def tells (record : Instruction) : Bool := record.order = 2 || record.order = 5

/-- The subroutine returns to the exit when the BREAK is dropped. The exit code is found wrong
at the third place of the one program and at the second of the other. -/
theorem telling_records_dropped :
    ∃ program other, Program.build telling = .ok program ∧
      Program.build (without tells telling) = .ok other ∧
      ((Machine.start ⟨[]⟩ .unbounded).execution? 9 program).map Execution.ending =
        some (.failed ⟨2, .exitCode 12⟩) ∧
      ∃ fuel, ((Machine.start ⟨[]⟩ .unbounded).execution? fuel other).map Execution.ending =
        some (.failed ⟨1, .exitCode 12⟩) := by
  have built : Program.build telling = .ok ⟨telling, [(['s'], 3)]⟩ := by decide +kernel
  have idle : ∀ record ∈ telling, tells record = true → record.IsIdle := by
    intro record member drops
    simp only [telling, List.mem_cons, List.not_mem_nil, or_false] at member
    rcases member with rfl | rfl | rfl | rfl | rfl | rfl
    · cases drops
    · exact .breakpoint (by decide)
    · cases drops
    · cases drops
    · exact .dprint (by decide) rfl rfl
    · cases drops
  obtain ⟨other, builtOther, alike⟩ := idle_records_can_be_dropped built idle
  obtain ⟨ends, same⟩ := alike ⟨[]⟩ .unbounded
  have fails : ((Machine.start ⟨[]⟩ .unbounded).execution? 9
      ⟨telling, [(['s'], 3)]⟩).map Execution.ending = some (.failed ⟨2, .exitCode 12⟩) := by
    decide +kernel
  refine ⟨_, other, built, builtOther, fails, ?_⟩
  obtain ⟨execution, executed, ended⟩ := Option.map_eq_some_iff.mp fails
  obtain ⟨fuel, shorter, executedToo⟩ := ends.mp ⟨9, execution, executed⟩
  have moved : placeWithout tells telling 2 = 1 := by decide
  refine ⟨fuel, ?_⟩
  rw [executedToo, Option.map_some, (same executed executedToo).ending, ended]
  simp only [Ending.relocated, RunError.relocated, moved]

end IPPcode24
