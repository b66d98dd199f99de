import IPPcode24.Proofs.Programs
import IPPcode24.Proofs.Reachable

/-!
# Order keys

The keys of instructions say in which order the instructions stand, and nothing else.
Two lists of records with the same instructions, whose keys differ from one another in the
same way, build the same program but for its keys and run in the same way, in whatever
order the records are listed. A list that repeats a key is never run.
-/

namespace IPPcode24

def Instruction.rekeyed (relabel : Int → Int) (instruction : Instruction) : Instruction :=
  { instruction with order := relabel instruction.order }

/-- The program with other keys. Its labels are places in the sequence and stay. -/
def Program.rekeyed (relabel : Int → Int) (program : Program) : Program :=
  ⟨program.instructions.map (Instruction.rekeyed relabel), program.labels⟩

theorem LabelTable.scan_rekeyed (relabel : Int → Int) (instructions : List Instruction) :
    scan (instructions.map (Instruction.rekeyed relabel)) = scan instructions := by
  have isLabel (instruction : Instruction) :
      (instruction.rekeyed relabel).isLabel = instruction.isLabel := rfl
  exact scanFrom_map isLabel (fun _ _ => rfl) 0 [] instructions

/-- A relabelling that is strictly increasing on the keys of the records. -/
def Rising (relabel : Int → Int) (records : List Instruction) : Prop :=
  ∀ a ∈ records, ∀ b ∈ records, a.order < b.order → relabel a.order < relabel b.order

section Building

variable {relabel : Int → Int} {records others : List Instruction}

theorem Rising.le_iff (rising : Rising relabel records) {a b : Instruction}
    (memberA : a ∈ records) (memberB : b ∈ records) :
    a.order ≤ b.order ↔ relabel a.order ≤ relabel b.order := by
  have below := rising a memberA b memberB
  have above := rising b memberB a memberA
  have equal : a.order = b.order → relabel a.order = relabel b.order := congrArg relabel
  omega

theorem Rising.nodup (rising : Rising relabel records)
    (distinct : (records.map (·.order)).Nodup) :
    ((records.map (Instruction.rekeyed relabel)).map (·.order)).Nodup := by
  have keys : (records.map (Instruction.rekeyed relabel)).map (·.order) =
      (records.map (·.order)).map relabel := by simp [Instruction.rekeyed]
  rw [keys]
  refine distinct.map_on ?_
  intro x memberX y memberY same
  obtain ⟨a, memberA, rfl⟩ := List.mem_map.mp memberX
  obtain ⟨b, memberB, rfl⟩ := List.mem_map.mp memberY
  have le := (rising.le_iff memberA memberB).mpr (Int.le_of_eq same)
  have ge := (rising.le_iff memberB memberA).mpr (Int.le_of_eq same.symm)
  exact Int.le_antisymm le ge

theorem Rising.sorted_map (rising : Rising relabel records) :
    Program.sorted (records.map (Instruction.rekeyed relabel)) =
      (Program.sorted records).map (Instruction.rekeyed relabel) :=
  Program.sorted_map fun _ memberA _ memberB => rising.le_iff memberA memberB

theorem build_of_perm (distinct : (records.map (·.order)).Nodup) (permuted : others.Perm records) :
    Program.build others = Program.build records := by
  have othersDistinct := (permuted.map (·.order)).nodup_iff.mpr distinct
  rw [Program.build_of_nodup othersDistinct, Program.build_of_nodup distinct,
    Program.sorted_eq_of_perm distinct permuted]

theorem Rising.build_map (rising : Rising relabel records)
    (distinct : (records.map (·.order)).Nodup) :
    Program.build (records.map (Instruction.rekeyed relabel)) =
      (Program.build records).map (Program.rekeyed relabel) := by
  rw [Program.build_of_nodup (rising.nodup distinct), Program.build_of_nodup distinct,
    rising.sorted_map, LabelTable.scan_rekeyed]
  cases LabelTable.scan (Program.sorted records) <;> rfl

end Building

/-- A step does not look at the keys. -/
theorem step_rekeyed (relabel : Int → Int) (program : Program) (machine : Machine) :
    machine.step (program.rekeyed relabel) = machine.step program := by
  simp only [Machine.step, Program.rekeyed, List.getElem?_map]
  cases program.instructions[machine.pc]? <;> rfl

theorem execution?_rekeyed (relabel : Int → Int) (program : Program) (fuel : Nat)
    (machine : Machine) :
    machine.execution? fuel (program.rekeyed relabel) = machine.execution? fuel program := by
  have size : (program.rekeyed relabel).size = program.size := List.length_map _
  exact execution?_eq_of_passes (fun machine _ => step_rekeyed relabel program machine) size rfl
    fuel

/-- Records without repeated keys build the same program in whatever order they are listed.
With other keys that stand in the same order they build that program with the other keys, or
fail with the same error, and they run in the same way. Records that repeat a key are never
run: however they are listed and whatever else is wrong with them, the error names a key that
is repeated. -/
theorem keys_only_order (records : List Instruction) :
    ((records.map (·.order)).Nodup →
      (∀ others : List Instruction, others.Perm records →
        Program.build others = Program.build records) ∧
      ∀ (relabel : Int → Int) (others : List Instruction), Rising relabel records →
        others.Perm (records.map (Instruction.rekeyed relabel)) →
          Program.build others = (Program.build records).map (Program.rekeyed relabel) ∧
          ∀ (fuel : Nat) (input : Input) (output : Output),
            runRecords fuel others input output = runRecords fuel records input output) ∧
    (¬ (records.map (·.order)).Nodup → ∀ others : List Instruction, others.Perm records →
      ∃ key, 2 ≤ (records.map (·.order)).count key ∧
        Program.build others = .error (.duplicateOrder key) ∧
        ∀ (fuel : Nat) (input : Input) (output : Output),
          runRecords fuel others input output = .error (.duplicateOrder key)) := by
  constructor
  · intro distinct
    refine ⟨fun others permuted => build_of_perm distinct permuted, ?_⟩
    intro relabel others rising permuted
    have built : Program.build others = (Program.build records).map (Program.rekeyed relabel) :=
      (build_of_perm (rising.nodup distinct) permuted).trans (rising.build_map distinct)
    refine ⟨built, ?_⟩
    intro fuel input output
    rw [runRecords, runRecords, built]
    cases Program.build records with
    | error error => rfl
    | ok program => exact congrArg Except.ok (execution?_rekeyed relabel program fuel _)
  · intro repeats others permuted
    have keys := permuted.map (·.order)
    have othersRepeat : ¬ (others.map (·.order)).Nodup := by rwa [keys.nodup_iff]
    obtain ⟨key, twice, failed⟩ := Program.build_of_not_nodup othersRepeat
    rw [keys.count_eq] at twice
    refine ⟨key, twice, failed, ?_⟩
    intro fuel input output
    rw [runRecords, failed]
    rfl

/-- Records with keys from one end of the 64-bit integers to the other. -/
def sparseRecords : List Instruction :=
  [⟨9223372036854775807, "EXIT".toList, [⟨.literal .int, ['3']⟩]⟩,
    ⟨-3, "LABEL".toList, [⟨.label, ['l']⟩]⟩,
    ⟨-9223372036854775808, "JUMP".toList, [⟨.label, ['l']⟩]⟩,
    ⟨40, "WRITE".toList, [⟨.literal .string, ['x']⟩]⟩]

def denseRecords : List Instruction :=
  [⟨1, "JUMP".toList, [⟨.label, ['l']⟩]⟩, ⟨2, "LABEL".toList, [⟨.label, ['l']⟩]⟩,
    ⟨3, "WRITE".toList, [⟨.literal .string, ['x']⟩]⟩,
    ⟨4, "EXIT".toList, [⟨.literal .int, ['3']⟩]⟩]

/-- Takes the keys of the sparse records to those of the dense ones. -/
def toDense (key : Int) : Int :=
  if key < -3 then 1 else if key < 0 then 2 else if key < 41 then 3 else 4

/-- Both lists write one text and exit with the same code. With one more record that has a
key of theirs they are not run, although that record is no instruction. -/
theorem sparse_records_run_as_dense :
    (sparseRecords.map (·.order)).Nodup ∧ Rising toDense sparseRecords ∧
    denseRecords.Perm (sparseRecords.map (Instruction.rekeyed toDense)) ∧
    runRecords 9 denseRecords ⟨[]⟩ .unbounded = runRecords 9 sparseRecords ⟨[]⟩ .unbounded ∧
    (runRecords 9 sparseRecords ⟨[]⟩ .unbounded).map
        (Option.map fun execution => (execution.ending, execution.machine.output.text)) =
      .ok (some (.halted (.exit 3), ['x'])) ∧
    ∃ key, 2 ≤ ((⟨40, ['?'], []⟩ :: sparseRecords).map (·.order)).count key ∧
      runRecords 9 (⟨40, ['?'], []⟩ :: sparseRecords) ⟨[]⟩ .unbounded =
        .error (.duplicateOrder key) := by
  have distinct : (sparseRecords.map (·.order)).Nodup := by decide
  have rising : Rising toDense sparseRecords := by unfold Rising; decide
  have permuted : denseRecords.Perm (sparseRecords.map (Instruction.rekeyed toDense)) := by
    decide +kernel
  have repeats : ¬ ((⟨40, ['?'], []⟩ :: sparseRecords).map (·.order)).Nodup := by decide
  obtain ⟨_, alike⟩ := (keys_only_order sparseRecords).1 distinct
  obtain ⟨_, runsAlike⟩ := alike toDense denseRecords rising permuted
  obtain ⟨key, twice, _, refused⟩ := (keys_only_order _).2 repeats _ (List.Perm.refl _)
  exact ⟨distinct, rising, permuted, runsAlike 9 ⟨[]⟩ .unbounded, by decide +kernel, key, twice,
    refused 9 ⟨[]⟩ .unbounded⟩

end IPPcode24
