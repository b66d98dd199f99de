import IPPcode24.Proofs.Building
import IPPcode24.Proofs.Reachable

/-!
# Code that a run does not come to

An instruction is looked at when a run comes to its place, and not before. Where a run does
not come, other records may stand, whatever their mnemonics and operands are, as long as they
have the same keys and no label comes or goes.
-/

namespace IPPcode24

/-- A run from the machine comes to the place, so the instruction there is looked up. -/
def Visits (program : Program) (first : Machine) (place : Nat) : Prop :=
  ∃ machine, Passes program first machine ∧ machine.pc = place

/-- What may stand in the place of a record: the record itself, or anything with its key that
is no LABEL either, if the run does not come to the record. -/
inductive StandsFor (program : Program) (first : Machine) (record : Instruction) :
    Instruction → Prop where
  | same : StandsFor program first record record
  | other {other : Instruction} (key : other.order = record.order)
      (noLabel : record.isLabel = false) (noLabelToo : other.isLabel = false)
      (unvisited : ∀ place, program.instructions[place]? = some record →
        ¬ Visits program first place) : StandsFor program first record other

section Replaced

variable {program other : Program} {first : Machine} {records others : List Instruction}

theorem StandsFor.order_eq {record replacement : Instruction}
    (stands : StandsFor program first record replacement) :
    replacement.order = record.order := by
  cases stands with
  | same => rfl
  | other key _ _ _ => exact key

theorem StandsFor.sameLabel {record replacement : Instruction}
    (stands : StandsFor program first record replacement) :
    replacement.isLabel = record.isLabel ∧
      (record.isLabel = true →
        LabelTable.declaredName? replacement = LabelTable.declaredName? record) := by
  cases stands with
  | same => exact ⟨rfl, fun _ => rfl⟩
  | other _ noLabel noLabelToo _ =>
    rw [noLabel, noLabelToo]
    exact ⟨rfl, nofun⟩

theorem getElem?_of_visits
    (replaced : List.Forall₂ (StandsFor program first) program.instructions other.instructions)
    {place : Nat} (visited : Visits program first place) :
    other.instructions[place]? = program.instructions[place]? := by
  have related := Program.forall₂_getElem? replaced place
  generalize other.instructions[place]? = replacement? at related
  cases found : program.instructions[place]? with
  | none =>
    rw [found] at related
    cases related
    rfl
  | some record =>
    rw [found] at related
    cases related with
    | some stands =>
      cases stands with
      | same => rfl
      | other _ _ _ unvisited => exact absurd visited (unvisited place found)

/-- A step looks at the instruction at its place and at the labels, and at nothing else of the
program. -/
theorem step_eq_of_getElem? {machine : Machine}
    (fetched : other.instructions[machine.pc]? = program.instructions[machine.pc]?)
    (labels : other.labels = program.labels) : machine.step other = machine.step program := by
  rw [Machine.step, Machine.step, fetched, labels]

theorem exists_replaced (built : Program.build records = .ok program)
    (replaced : List.Forall₂ (StandsFor program first) records others) :
    ∃ other, Program.build others = .ok other ∧ other.labels = program.labels ∧
      List.Forall₂ (StandsFor program first) program.instructions other.instructions :=
  exists_build_of_forall₂ StandsFor.order_eq StandsFor.sameLabel built replaced

end Replaced

/-- Records to which a run does not come can be replaced by any records that have the same keys
and are no labels either. The other program has the same labels and is executed in the same
way, with however many steps: it ends as the first one does, after as many steps, with the
same frames, open calls, input and output. -/
theorem unvisited_records_can_be_replaced {records others : List Instruction} {program : Program}
    {first : Machine} (built : Program.build records = .ok program)
    (replaced : List.Forall₂ (StandsFor program first) records others) :
    ∃ other, Program.build others = .ok other ∧ other.labels = program.labels ∧
      ∀ fuel, first.execution? fuel other = first.execution? fuel program := by
  obtain ⟨other, builtToo, labels, each⟩ := exists_replaced built replaced
  have size : other.size = program.size := each.length_eq.symm
  have steps (machine : Machine) (passed : Passes program first machine) :
      machine.step other = machine.step program :=
    step_eq_of_getElem? (getElem?_of_visits each ⟨machine, passed, rfl⟩) labels
  exact ⟨other, builtToo, labels, execution?_eq_of_passes steps size (congrArg _ labels)⟩

/-- A jump over a WRITE, an exit, and a WRITE behind it. -/
def leaping : List Instruction :=
  [⟨30, "LABEL".toList, [⟨.label, ['e']⟩]⟩, ⟨10, "JUMP".toList, [⟨.label, ['e']⟩]⟩,
    ⟨20, "WRITE".toList, [⟨.literal .string, ['x']⟩]⟩,
    ⟨40, "EXIT".toList, [⟨.literal .int, ['3']⟩]⟩,
    ⟨50, "WRITE".toList, [⟨.literal .string, ['y']⟩]⟩]

/-- The same records without a sensible WRITE: one of them has no known opcode, and the other
one jumps to a label that is not there. -/
def leapingOverNonsense : List Instruction :=
  [⟨30, "LABEL".toList, [⟨.label, ['e']⟩]⟩, ⟨10, "JUMP".toList, [⟨.label, ['e']⟩]⟩,
    ⟨20, "FROB".toList, [⟨.type, ['?']⟩]⟩,
    ⟨40, "EXIT".toList, [⟨.literal .int, ['3']⟩]⟩,
    ⟨50, "JUMP".toList, [⟨.label, ['?']⟩]⟩]

/-- The nonsense is neither jumped to nor run into, so both programs exit with the same code. -/
theorem nonsense_is_not_met :
    ∃ program other, Program.build leaping = .ok program ∧
      Program.build leapingOverNonsense = .ok other ∧ other.labels = program.labels ∧
      other.instructions ≠ program.instructions ∧
      (Machine.start ⟨[]⟩ .unbounded).execution? 9 other =
        (Machine.start ⟨[]⟩ .unbounded).execution? 9 program ∧
      ((Machine.start ⟨[]⟩ .unbounded).execution? 9 program).map Execution.ending =
        some (.halted (.exit 3)) := by
  let program : Program := ⟨Program.sorted leaping, [(['e'], 2)]⟩
  let first : Machine := .start ⟨[]⟩ .unbounded
  have built : Program.build leaping = .ok program := by decide +kernel
  have passed {machine : Machine} (passed : Passes program first machine) :
      machine ∈ [first, ⟨.empty, [], 2, 1, ⟨[]⟩, .unbounded⟩,
        ⟨.empty, [], 3, 2, ⟨[]⟩, .unbounded⟩] := by
    refine passed.invariant List.mem_cons_self ?_
    intro earlier member runs
    simp only [List.mem_cons, List.not_mem_nil, or_false] at member
    rcases member with rfl | rfl | rfl
    · exact List.mem_cons_of_mem _ List.mem_cons_self
    · exact List.mem_cons_of_mem _ (List.mem_cons_of_mem _ List.mem_cons_self)
    · cases runs
  have unvisited (record : Instruction) (either : record.order ∈ [20, 50]) (place : Nat)
      (found : program.instructions[place]? = some record) : ¬ Visits program first place := by
    rintro ⟨machine, run, rfl⟩
    have key : (program.instructions[machine.pc]?).map (·.order) ∈ [some 10, some 30, some 40] := by
      have member := passed run
      simp only [List.mem_cons, List.not_mem_nil, or_false] at member
      rcases member with rfl | rfl | rfl <;> decide
    rw [found] at key
    simp only [List.mem_cons, List.not_mem_nil, or_false] at either
    rcases either with same | same <;> simp [same] at key
  have replaced : List.Forall₂ (StandsFor program first) leaping leapingOverNonsense :=
    .cons .same <| .cons .same <|
      .cons (.other rfl (by decide) (by decide) (unvisited _ (by decide))) <| .cons .same <|
        .cons (.other rfl (by decide) (by decide) (unvisited _ (by decide))) .nil
  obtain ⟨other, builtToo, labels, alike⟩ := unvisited_records_can_be_replaced built replaced
  have differs : other.instructions ≠ program.instructions := by
    rw [(Program.build_eq_ok builtToo).1]
    decide +kernel
  exact ⟨program, other, built, builtToo, labels, differs, alike 9, by decide +kernel⟩

end IPPcode24
