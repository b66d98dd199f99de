import IPPcode24.Proofs.Building
import IPPcode24.Proofs.LockStep
import IPPcode24.Proofs.OrderKeys
import IPPcode24.Proofs.Relocation

/-!
# Code layout

Where code stands in a program does not matter as long as the first piece of it stays first
and no run goes on from one piece to the next. Pieces that end with a jump, a return or an
exit can follow the first one in any order. The program still builds, and it runs in lock
step with the original one, with all places taken along.
-/

namespace IPPcode24

/-- The last instruction of the piece is never followed by the one that stands behind it. -/
def Closed (piece : List Instruction) : Prop :=
  ∃ front last opcode, piece = front ++ [last] ∧ last.opcode? = some opcode ∧
    opcode ∈ Opcode.leaving

def Instruction.unkeyed : Instruction → Instruction := Instruction.rekeyed fun _ => 0

/-- The place in the arrangement of the instruction that stands at a place in the sequence. -/
def placeIn (arrangement sequence : List Instruction) (place : Nat) : Nat :=
  match sequence[place]? with
  | some instruction => arrangement.idxOf instruction
  | none => place

/-! ## Instructions that follow one another -/

section Followers

variable {sequence : List Instruction} {pieces : List (List Instruction)}
  {instruction follower : Instruction} {index : Nat}

theorem infix_of_getElem? (found : sequence[index]? = some instruction)
    (foundNext : sequence[index + 1]? = some follower) :
    [instruction, follower] <:+: sequence := by
  obtain ⟨bound, rfl⟩ := List.getElem?_eq_some_iff.mp found
  obtain ⟨boundNext, rfl⟩ := List.getElem?_eq_some_iff.mp foundNext
  refine ⟨sequence.take index, sequence.drop (index + 2), ?_⟩
  have rest : sequence.drop index =
      sequence[index] :: sequence[index + 1] :: sequence.drop (index + 2) := by
    rw [List.drop_eq_getElem_cons bound, List.drop_eq_getElem_cons boundNext]
  calc sequence.take index ++ [sequence[index], sequence[index + 1]] ++ sequence.drop (index + 2)
    _ = sequence.take index ++ sequence.drop index := by rw [rest]; simp
    _ = sequence := List.take_append_drop index sequence

theorem idxOf_of_getElem? (distinct : sequence.Nodup)
    (found : sequence[index]? = some instruction) : sequence.idxOf instruction = index := by
  obtain ⟨bound, rfl⟩ := List.getElem?_eq_some_iff.mp found
  exact distinct.idxOf_getElem index bound

/-- In a sequence that repeats nothing the follower has the next place. -/
theorem idxOf_follower (distinct : sequence.Nodup)
    (follows : [instruction, follower] <:+: sequence) :
    sequence.idxOf follower = sequence.idxOf instruction + 1 := by
  obtain ⟨before, after, rfl⟩ := follows
  have first : (before ++ [instruction, follower] ++ after).idxOf instruction = before.length :=
    idxOf_of_getElem? distinct (by simp)
  have second : (before ++ [instruction, follower] ++ after).idxOf follower = before.length + 1 :=
    idxOf_of_getElem? distinct (by simp)
  rw [first, second]

/-- An instruction that goes on is followed by another one of its piece. -/
theorem exists_follower {opcode : Opcode} (closed : ∀ piece ∈ pieces, Closed piece)
    (found : pieces.flatten[index]? = some instruction)
    (known : instruction.opcode? = some opcode) (stays : opcode ∉ Opcode.leaving) :
    ∃ follower, pieces.flatten[index + 1]? = some follower ∧
      ∃ piece ∈ pieces, [instruction, follower] <:+: piece := by
  induction pieces generalizing index with
  | nil => cases found
  | cons piece rest ih =>
    obtain ⟨front, last, lastOpcode, rfl, lastKnown, leaves⟩ := closed piece (by simp)
    rw [List.flatten_cons] at found ⊢
    by_cases within : index < (front ++ [last]).length
    · rw [List.getElem?_append_left within] at found
      have notLast : index ≠ front.length := by
        rintro rfl
        rw [List.getElem?_concat_length] at found
        cases found
        rw [lastKnown] at known
        cases known
        exact stays leaves
      have withinNext : index + 1 < (front ++ [last]).length := by
        rw [List.length_append, List.length_singleton] at within ⊢
        omega
      have foundNext := List.getElem?_eq_getElem withinNext
      rw [List.getElem?_append_left withinNext]
      exact ⟨_, foundNext, _, by simp, infix_of_getElem? found foundNext⟩
    · rw [Nat.not_lt] at within
      rw [List.getElem?_append_right within] at found
      obtain ⟨follower, foundNext, piece, member, follows⟩ :=
        ih (fun piece member => closed piece (List.mem_cons_of_mem _ member)) found
      refine ⟨follower, ?_, piece, List.mem_cons_of_mem _ member, follows⟩
      rw [List.getElem?_append_right (Nat.le_succ_of_le within), ← foundNext]
      congr 1
      omega

end Followers

/-! ## Arranged pieces -/

section Arranged

variable {sequence arrangement : List Instruction} {pieces arranged : List (List Instruction)}
  {index : Nat}

theorem getElem?_placeIn (permuted : arrangement.Perm sequence) (index : Nat) :
    arrangement[placeIn arrangement sequence index]? = sequence[index]? := by
  rw [placeIn]
  cases found : sequence[index]? with
  | some instruction =>
    have member := permuted.mem_iff.mpr (List.mem_of_getElem? found)
    rw [List.getElem?_eq_getElem (List.idxOf_lt_length_of_mem member)]
    exact congrArg some (List.getElem_idxOf _)
  | none =>
    rw [List.getElem?_eq_none_iff] at found ⊢
    rw [permuted.length_eq]
    exact found

theorem placeIn_succ {instruction : Instruction} {opcode : Opcode}
    (closed : ∀ piece ∈ pieces, Closed piece) (permuted : arranged.Perm pieces)
    (distinct : arranged.flatten.Nodup)
    (found : pieces.flatten[index]? = some instruction)
    (known : instruction.opcode? = some opcode) (stays : opcode ∉ Opcode.leaving) :
    placeIn arranged.flatten pieces.flatten (index + 1) =
      placeIn arranged.flatten pieces.flatten index + 1 := by
  obtain ⟨follower, foundNext, piece, member, follows⟩ := exists_follower closed found known stays
  have inside : piece <:+: arranged.flatten :=
    List.infix_of_mem_flatten (permuted.mem_iff.mpr member)
  simp only [placeIn, found, foundNext]
  exact idxOf_follower distinct (follows.trans inside)

end Arranged

/-! ## Lock step -/

/-- The other program is the program with its instructions and labels at the mapped places. -/
structure Relocates (program other : Program) (place : Nat → Nat) : Prop where
  labels : SameLabels program other place
  same : ∀ index, SameAt program other place index
  size : other.size = program.size
  count : other.labels.length = program.labels.length

/-- Machines, events and endings are taken to the mapped places. -/
def relocation (place : Nat → Nat) : Translation where
  machine := Machine.relocated place
  event := Event.relocated place
  ending := Ending.relocated place

section LockStep

variable {program other : Program} {place : Nat → Nat}

theorem Relocates.lockStep (relocates : Relocates program other place) :
    LockStep (relocation place) program other := by
  intro machine
  exact step_relocated relocates.labels (relocates.same machine.pc)

theorem Relocates.continued (relocates : Relocates program other place) (fuel : Nat) (run : Run) :
    (run.relocated place).continued other fuel =
      (run.continued program fuel).relocated place :=
  relocates.lockStep.continued fuel run

theorem Relocates.framed (relocates : Relocates program other place) :
    (relocation place).Framed program other := by
  constructor
  · rw [relocates.size, relocates.count]
    rfl
  · exact flushed_relocated
  · intro machine reached
    cases reached <;> rfl
  · intro machine ending
    cases ending <;> rfl

theorem Relocates.execution? (relocates : Relocates program other place) (fuel : Nat)
    (machine : Machine) :
    (machine.relocated place).execution? fuel other =
      (machine.execution? fuel program).map (Execution.relocated place) :=
  relocates.lockStep.execution? relocates.framed fuel machine

end LockStep

/-! ## Rearranged programs -/

section Rearranged

variable {program : Program} {labels : LabelTable} {entry : List Instruction}
  {pieces arranged : List (List Instruction)}

/-- A program whose pieces are arranged in another way is the program at other places. -/
theorem relocates_of_rearranged (exact : program.labels.Exact program.instructions)
    (distinct : program.instructions.Nodup) (split : program.instructions = pieces.flatten)
    (closed : ∀ piece ∈ pieces, Closed piece) (permuted : arranged.Perm pieces)
    (scanned : LabelTable.scan arranged.flatten = .ok labels) :
    Relocates program ⟨arranged.flatten, labels⟩
      (placeIn arranged.flatten program.instructions) := by
  have flat : arranged.flatten.Perm program.instructions := by
    rw [split]
    exact permuted.flatten
  have exactToo : labels.Exact arranged.flatten := LabelTable.exact_of_scan scanned
  have found := getElem?_placeIn flat
  constructor
  · apply sameLabels_of_exact exact exactToo
    · intro index instruction stands _
      exact (found index).trans stands
    · intro instruction member
      exact flat.mem_iff.mp member
  · intro index
    refine ⟨found index, ?_⟩
    intro opcode next stays
    obtain ⟨instruction, stands, known⟩ := Option.bind_eq_some_iff.mp next
    rw [split] at stands ⊢
    exact placeIn_succ closed permuted (flat.nodup_iff.mpr distinct) stands known stays
  · exact flat.length_eq
  · rw [exact.count, exactToo.count]
    exact flat.countP_eq _

theorem start_relocated (opened : entry ≠ []) (before after : List Instruction)
    (input : Input) (output : Output) :
    (Machine.start input output).relocated (placeIn (entry ++ after) (entry ++ before)) =
      Machine.start input output := by
  have first : placeIn (entry ++ after) (entry ++ before) 0 = 0 := by
    obtain ⟨head, tail, rfl⟩ := List.exists_cons_of_ne_nil opened
    exact List.idxOf_cons_self
  rw [Machine.start, Machine.relocated, first]
  rfl

end Rearranged

section Unkeyed

variable {sequence arrangement : List Instruction}

theorem scan_of_unkeyed
    (content : sequence.map Instruction.unkeyed = arrangement.map Instruction.unkeyed) :
    LabelTable.scan sequence = LabelTable.scan arrangement := by
  rw [← LabelTable.scan_rekeyed (fun _ => 0) sequence,
    ← LabelTable.scan_rekeyed (fun _ => 0) arrangement]
  exact congrArg LabelTable.scan content

theorem step_of_unkeyed
    (content : sequence.map Instruction.unkeyed = arrangement.map Instruction.unkeyed)
    (labels : LabelTable) (machine : Machine) :
    machine.step ⟨sequence, labels⟩ = machine.step ⟨arrangement, labels⟩ := by
  rw [← step_rekeyed (fun _ => 0) ⟨sequence, labels⟩,
    ← step_rekeyed (fun _ => 0) ⟨arrangement, labels⟩]
  exact congrArg (fun instructions => machine.step ⟨instructions, labels⟩) content

end Unkeyed

/-- Let a program consist of pieces of code that a run never falls out of. Records with the
same instructions, their pieces but the first one arranged in another way and their keys
chosen to match, build as well. Both programs run in lock step: after any number of steps
the frames, the input, the output and the counts are the same, and the places, be it of the
next instruction, to return to, of an event or of an error, are those of the same
instructions. -/
theorem code_layout_does_not_matter {records others sequence entry : List Instruction}
    {blocks arranged : List (List Instruction)} {program : Program}
    (built : Program.build records = .ok program)
    (split : program.instructions = entry ++ blocks.flatten)
    (closed : ∀ piece ∈ entry :: blocks, Closed piece)
    (permuted : arranged.Perm blocks)
    (arranges : Arranges others sequence)
    (content : sequence.map Instruction.unkeyed =
      (entry ++ arranged.flatten).map Instruction.unkeyed) :
    ∃ other, Program.build others = .ok other ∧ other.instructions = sequence ∧
      ∀ (fuel : Nat) (input : Input) (output : Output),
        (Run.start (.start input output)).continued other fuel =
          ((Run.start (.start input output)).continued program fuel).relocated
            (placeIn (entry ++ arranged.flatten) program.instructions) ∧
        (Machine.start input output).execution? fuel other =
          ((Machine.start input output).execution? fuel program).map
            (Execution.relocated (placeIn (entry ++ arranged.flatten) program.instructions)) := by
  have pieces : (entry :: arranged).Perm (entry :: blocks) := permuted.cons entry
  have whole : program.instructions = (entry :: blocks).flatten := split
  have flat : (entry :: arranged).flatten.Perm program.instructions := by
    rw [whole]
    exact pieces.flatten
  have exact := exact_of_build built
  obtain ⟨labels, scanned⟩ := ((properLabels_perm_iff flat).mpr exact.properLabels).exists_scan
  have relocates := relocates_of_rearranged exact (arranges_of_build built).distinct whole closed
    pieces scanned
  -- the program that is built has other keys, which the steps do not look at
  have builtOther : Program.build others = .ok ⟨sequence, labels⟩ := by
    rw [arranges.build_eq, (scan_of_unkeyed content).trans scanned]
    rfl
  have steps := step_of_unkeyed content labels
  have size : (Program.mk sequence labels).size = (entry ++ arranged.flatten).length := by
    have lengths := congrArg List.length content
    rwa [List.length_map, List.length_map] at lengths
  have opened : entry ≠ [] := by
    obtain ⟨front, last, _, rfl, _⟩ := closed entry List.mem_cons_self
    simp
  refine ⟨_, builtOther, rfl, ?_⟩
  intro fuel input output
  have start := start_relocated opened blocks.flatten arranged.flatten input output
  rw [← split] at start
  constructor
  · have runs := relocates.continued fuel (Run.start (.start input output))
    rw [Run.relocated, Run.start, List.flatten_cons, start] at runs
    rw [continued_eq_of_passes (fun machine _ => steps machine) fuel _ fun _ => .start]
    exact runs
  · have executes := relocates.execution? fuel (.start input output)
    rw [List.flatten_cons, start] at executes
    rw [execution?_eq_of_passes (fun machine _ => steps machine) size rfl]
    exact executes

/-- Calls a subroutine and jumps to the end. -/
def calling : List Instruction :=
  [⟨1, "CALL".toList, [⟨.label, ['s']⟩]⟩, ⟨2, "JUMP".toList, [⟨.label, ['e']⟩]⟩]

def writing : List Instruction :=
  [⟨3, "LABEL".toList, [⟨.label, ['s']⟩]⟩, ⟨4, "WRITE".toList, [⟨.literal .string, ['x']⟩]⟩,
    ⟨5, "RETURN".toList, []⟩]

def exiting : List Instruction :=
  [⟨6, "LABEL".toList, [⟨.label, ['e']⟩]⟩, ⟨7, "EXIT".toList, [⟨.literal .int, ['1', '2']⟩]⟩]

/-- The same code with the subroutine behind the end, and with other keys. -/
def writingLast : List Instruction :=
  [⟨-2, "CALL".toList, [⟨.label, ['s']⟩]⟩, ⟨-1, "JUMP".toList, [⟨.label, ['e']⟩]⟩,
    ⟨0, "LABEL".toList, [⟨.label, ['e']⟩]⟩, ⟨1, "EXIT".toList, [⟨.literal .int, ['1', '2']⟩]⟩,
    ⟨6, "LABEL".toList, [⟨.label, ['s']⟩]⟩, ⟨7, "WRITE".toList, [⟨.literal .string, ['x']⟩]⟩,
    ⟨9, "RETURN".toList, []⟩]

/-- Before the end or behind it, the subroutine writes the text and returns. The exit code is
found wrong at the last place of the one program and at the fourth of the other. -/
theorem subroutine_behind_the_end :
    ∃ program other, Program.build (calling ++ [writing, exiting].flatten) = .ok program ∧
      Program.build writingLast = .ok other ∧
      ((Machine.start ⟨[]⟩ .unbounded).execution? 9 program).map
          (fun execution => (execution.ending, execution.machine.output.text)) =
        some (.failed ⟨6, .exitCode 12⟩, ['x']) ∧
      ((Machine.start ⟨[]⟩ .unbounded).execution? 9 other).map
          (fun execution => (execution.ending, execution.machine.output.text)) =
        some (.failed ⟨3, .exitCode 12⟩, ['x']) := by
  let program : Program :=
    ⟨calling ++ [writing, exiting].flatten, [(['s'], 2), (['e'], 5)]⟩
  have built : Program.build (calling ++ [writing, exiting].flatten) = .ok program := by
    decide +kernel
  have closed : ∀ piece ∈ calling :: [writing, exiting], Closed piece := by
    intro piece member
    simp only [List.mem_cons, List.not_mem_nil, or_false] at member
    rcases member with rfl | rfl | rfl
    · exact ⟨calling.take 1, ⟨2, "JUMP".toList, [⟨.label, ['e']⟩]⟩, .jump, rfl,
        by decide, by decide⟩
    · exact ⟨writing.take 2, ⟨5, "RETURN".toList, []⟩, .ret, rfl, by decide, by decide⟩
    · exact ⟨exiting.take 1, ⟨7, "EXIT".toList, [⟨.literal .int, ['1', '2']⟩]⟩, .exit, rfl,
        by decide, by decide⟩
  have arranges : Arranges writingLast writingLast := ⟨List.Perm.refl _, by decide⟩
  obtain ⟨other, builtOther, _, alike⟩ := code_layout_does_not_matter built rfl closed
    (List.Perm.swap exiting writing []).symm arranges (by decide)
  obtain ⟨_, executes⟩ := alike 9 ⟨[]⟩ .unbounded
  have fails : ((Machine.start ⟨[]⟩ .unbounded).execution? 9 program).map
      (fun execution => (execution.ending, execution.machine.output.text)) =
        some (.failed ⟨6, .exitCode 12⟩, ['x']) := by decide +kernel
  refine ⟨program, other, built, builtOther, fails, ?_⟩
  rw [executes]
  obtain ⟨execution, executed, same⟩ := Option.map_eq_some_iff.mp fails
  have ended := (Prod.mk.inj same).1
  have written := (Prod.mk.inj same).2
  have moved : placeIn (calling ++ [exiting, writing].flatten) program.instructions 6 = 3 := by
    decide
  rw [executed]
  simpa [Execution.relocated, Machine.relocated, Ending.relocated, RunError.relocated, ended,
    written] using moved

end IPPcode24
