import IPPcode24.Proofs.Programs

/-!
# What builds, and into what

A list of records builds exactly when no key is repeated and its LABEL records have the form
of one and different names. The program is then the arrangement of the records by their
keys, with an exact table of its labels. Of several faults one is reported: a repeated key
before all others, in the order of the list, and then a label in the order of the
arrangement.
-/

namespace IPPcode24

/-- The sequence has the records in the ascending order of their keys: none is lost, doubled
or altered. -/
structure Arranges (records instructions : List Instruction) : Prop where
  perm : instructions.Perm records
  ascending : instructions.Pairwise fun a b => a.order < b.order

/-- Every LABEL record declares a label, and no two of them the same one. -/
structure ProperLabels (records : List Instruction) : Prop where
  formed : ∀ record ∈ records, record.isLabel = true → ∃ name, record.Declares name
  distinct : records.Pairwise fun a b => ∀ name, a.Declares name → ¬ b.Declares name

/-- The key of the first record, in the order of the list, whose key occurred before. -/
inductive FirstRepeated (records : List Instruction) : Int → Prop where
  | intro {before after : List Instruction} {record : Instruction}
      (split : records = before ++ record :: after) (distinct : (before.map (·.order)).Nodup)
      (occurred : record.order ∈ before.map (·.order)) : FirstRepeated records record.order

section Arrangement

variable {records instructions : List Instruction}

theorem arranges_sorted (distinct : (records.map (·.order)).Nodup) :
    Arranges records (Program.sorted records) := by
  refine ⟨Program.sorted_perm records, ?_⟩
  have keys : ((Program.sorted records).map (·.order)).Nodup :=
    ((Program.sorted_perm records).map (·.order)).nodup_iff.mpr distinct
  have ordered := (Program.pairwise_sorted records).and (List.pairwise_map.mp keys)
  refine ordered.imp ?_
  rintro a b ⟨le, ne⟩
  omega

theorem Arranges.nodup (arranged : Arranges records instructions) :
    (records.map (·.order)).Nodup := by
  have keys : (instructions.map (·.order)).Nodup :=
    List.pairwise_map.mpr (arranged.ascending.imp Int.ne_of_lt)
  exact (arranged.perm.map (·.order)).nodup_iff.mp keys

theorem Arranges.distinct (arranged : Arranges records instructions) : instructions.Nodup := by
  refine arranged.ascending.imp ?_
  rintro a b below rfl
  omega

/-- Records have no arrangement but the sorted one. -/
theorem Arranges.eq_sorted (arranged : Arranges records instructions) :
    instructions = Program.sorted records := by
  have ordered : instructions.Pairwise fun a b => a.order ≤ b.order :=
    arranged.ascending.imp Int.le_of_lt
  calc instructions
    _ = Program.sorted instructions := (Program.sorted_of_pairwise ordered).symm
    _ = Program.sorted records := Program.sorted_eq_of_perm arranged.nodup arranged.perm

end Arrangement

/-! ## Labels -/

section Labels

variable {records instructions : List Instruction}

/-- No label of a sequence is wrong exactly when its labels are proper. -/
theorem properLabels_iff :
    ProperLabels instructions ↔ ∀ place error, ¬ LabelFault instructions place error := by
  constructor
  · intro proper place error fault
    cases fault with
    | malformed found isLabel unformed =>
      obtain ⟨name, declares⟩ := proper.formed _ (List.mem_of_getElem? found) isLabel
      exact unformed name declares
    | @repeated name earlier before first again =>
      obtain ⟨a, foundFirst, declares⟩ := first
      obtain ⟨b, foundAgain, declaresToo⟩ := again
      obtain ⟨boundFirst, rfl⟩ := List.getElem?_eq_some_iff.mp foundFirst
      obtain ⟨boundAgain, rfl⟩ := List.getElem?_eq_some_iff.mp foundAgain
      have apart := List.pairwise_iff_getElem.mp proper.distinct
      exact apart earlier place boundFirst boundAgain before name declares declaresToo
  · intro flawless
    constructor
    · intro record member isLabel
      obtain ⟨place, found⟩ := List.mem_iff_getElem?.mp member
      by_contra unformed
      have none (name : Text) : ¬ record.Declares name := fun declares =>
        unformed ⟨name, declares⟩
      exact flawless place _ (.malformed found isLabel none)
    · refine List.pairwise_iff_getElem.mpr ?_
      intro earlier place boundEarlier bound before name declares declaresToo
      have first : DeclaredAt instructions name earlier :=
        ⟨_, List.getElem?_eq_getElem boundEarlier, declares⟩
      have again : DeclaredAt instructions name place :=
        ⟨_, List.getElem?_eq_getElem bound, declaresToo⟩
      exact flawless place _ (.repeated before first again)

/-- Whether labels are proper does not depend on the arrangement. -/
theorem properLabels_perm_iff (permuted : instructions.Perm records) :
    ProperLabels instructions ↔ ProperLabels records := by
  have apart : (instructions.Pairwise fun a b => ∀ name, a.Declares name → ¬ b.Declares name) ↔
      records.Pairwise fun a b => ∀ name, a.Declares name → ¬ b.Declares name := by
    refine permuted.pairwise_iff ?_
    intro a b differ name declares declaresToo
    exact differ name declaresToo declares
  constructor
  · rintro ⟨formed, distinct⟩
    refine ⟨?_, apart.mp distinct⟩
    intro record member
    exact formed record (permuted.mem_iff.mpr member)
  · rintro ⟨formed, distinct⟩
    refine ⟨?_, apart.mpr distinct⟩
    intro record member
    exact formed record (permuted.mem_iff.mp member)

theorem LabelTable.Exact.properLabels {labels : LabelTable}
    (exact : labels.Exact instructions) : ProperLabels instructions := by
  refine properLabels_iff.mpr ?_
  intro place error fault
  exact exact.flawless place fault.lt_length error fault

theorem ProperLabels.exists_scan (proper : ProperLabels instructions) :
    ∃ labels, LabelTable.scan instructions = .ok labels := by
  cases scanned : LabelTable.scan instructions with
  | ok labels => exact ⟨labels, rfl⟩
  | error error =>
    obtain ⟨place, wrong, _⟩ := LabelTable.firstFault_of_scan scanned
    exact absurd wrong (properLabels_iff.mp proper place error)

end Labels

/-! ## Building -/

section Building

variable {records : List Instruction} {program : Program} {error : BuildError}

theorem repeatedKey?_eq_some_iff {key : Int} :
    Program.repeatedKey? (records.map (·.order)) = some key ↔ FirstRepeated records key := by
  rw [Program.repeatedKey?, Program.repeatedAfter_eq_some]
  constructor
  · rintro ⟨front, back, split, distinct, impossible | occurred⟩
    · cases impossible
    · obtain ⟨before, rest, rfl, rfl, keys⟩ := List.map_eq_append_iff.mp split
      obtain ⟨record, after, rfl, rfl, rfl⟩ := List.map_eq_cons_iff.mp keys
      exact .intro rfl (Program.repeatedKey?_eq_none.mp distinct) occurred
  · intro first
    cases first with
    | @intro before after record split distinct occurred =>
      refine ⟨before.map (·.order), after.map (·.order), ?_, ?_, Or.inr occurred⟩
      · rw [split, List.map_append, List.map_cons]
      · exact Program.repeatedKey?_eq_none.mpr distinct

theorem FirstRepeated.not_nodup {key : Int} (first : FirstRepeated records key) :
    ¬ (records.map (·.order)).Nodup := by
  intro distinct
  rw [← repeatedKey?_eq_some_iff] at first
  rw [Program.repeatedKey?_eq_none.mpr distinct] at first
  cases first

theorem nodup_of_build (built : Program.build records = .ok program) :
    (records.map (·.order)).Nodup := by
  by_contra repeats
  obtain ⟨key, _, failed⟩ := Program.build_of_not_nodup repeats
  rw [failed] at built
  cases built

theorem exact_of_build (built : Program.build records = .ok program) :
    program.labels.Exact program.instructions :=
  LabelTable.exact_of_scan (Program.build_eq_ok built).2

theorem arranges_of_build (built : Program.build records = .ok program) :
    Arranges records program.instructions := by
  rw [(Program.build_eq_ok built).1]
  exact arranges_sorted (nodup_of_build built)

/-- Records that correspond to those of a program one by one, with the same keys and the same
labels, build a program of corresponding instructions. -/
theorem exists_build_of_forall₂ {related : Instruction → Instruction → Prop}
    {others : List Instruction}
    (keys : ∀ {record other}, related record other → other.order = record.order)
    (alike : ∀ {record other}, related record other → other.isLabel = record.isLabel ∧
      (record.isLabel = true → LabelTable.declaredName? other = LabelTable.declaredName? record))
    (built : Program.build records = .ok program) (each : List.Forall₂ related records others) :
    ∃ other, Program.build others = .ok other ∧ other.labels = program.labels ∧
      List.Forall₂ related program.instructions other.instructions := by
  obtain ⟨arranged, scanned⟩ := Program.build_eq_ok built
  have sorted := Program.forall₂_sorted keys each
  have sameKeys : others.map (·.order) = records.map (·.order) := by
    rw [← List.forall₂_eq_eq_eq, List.forall₂_map_left_iff, List.forall₂_map_right_iff]
    exact each.flip.imp fun _ _ => keys
  have distinct : (others.map (·.order)).Nodup := sameKeys ▸ nodup_of_build built
  have scannedToo : LabelTable.scan (Program.sorted others) = .ok program.labels := by
    rw [← scanned, arranged]
    exact LabelTable.scanFrom_eq_of_forall₂ (sorted.imp fun _ _ => alike) 0 []
  refine ⟨⟨Program.sorted others, program.labels⟩, ?_, rfl, ?_⟩
  · rw [Program.build_of_nodup distinct, scannedToo]
    rfl
  · rw [arranged]
    exact sorted

/-- A sequence that arranges the records is the program that they build, if it is scanned. -/
theorem Arranges.build_eq {instructions : List Instruction}
    (arranged : Arranges records instructions) :
    Program.build records = (LabelTable.scan instructions).map (⟨instructions, ·⟩) := by
  rw [Program.build_of_nodup arranged.nodup, ← arranged.eq_sorted]

theorem Arranges.exists_build {instructions : List Instruction}
    (arranged : Arranges records instructions) (proper : ProperLabels records) :
    ∃ program, Program.build records = .ok program := by
  obtain ⟨labels, scanned⟩ := ((properLabels_perm_iff arranged.perm).mpr proper).exists_scan
  rw [arranged.build_eq, scanned]
  exact ⟨_, rfl⟩

theorem build_eq_error_iff :
    Program.build records = .error error ↔
      (∃ key, error = .duplicateOrder key ∧ FirstRepeated records key) ∨
      ∃ instructions, Arranges records instructions ∧ FirstFault instructions error := by
  by_cases distinct : (records.map (·.order)).Nodup
  · rw [Program.build_of_nodup distinct, Chain.map_eq_error]
    constructor
    · intro failed
      exact Or.inr ⟨_, arranges_sorted distinct, LabelTable.firstFault_of_scan failed⟩
    · rintro (⟨key, _, first⟩ | ⟨instructions, arranged, fault⟩)
      · exact absurd distinct first.not_nodup
      · rw [arranged.eq_sorted] at fault
        cases scanned : LabelTable.scan (Program.sorted records) with
        | ok labels =>
          have flawless := properLabels_iff.mp (LabelTable.exact_of_scan scanned).properLabels
          obtain ⟨place, wrong, _⟩ := fault
          exact absurd wrong (flawless place error)
        | error other => rw [fault.eq (LabelTable.firstFault_of_scan scanned)]
  · obtain ⟨key, repeated⟩ :=
      Option.ne_none_iff_exists'.mp (mt Program.repeatedKey?_eq_none.mp distinct)
    have failed : Program.build records = .error (.duplicateOrder key) := by
      rw [Program.build, repeated]
    rw [failed, Except.error.injEq]
    constructor
    · rintro rfl
      exact Or.inl ⟨key, rfl, repeatedKey?_eq_some_iff.mp repeated⟩
    · rintro (⟨other, rfl, first⟩ | ⟨instructions, arranged, _⟩)
      · rw [repeatedKey?_eq_some_iff.mpr first] at repeated
        rw [Option.some.inj repeated]
      · exact absurd arranged.nodup distinct

theorem exists_build_iff :
    (∃ program, Program.build records = .ok program) ↔
      (records.map (·.order)).Nodup ∧ ProperLabels records := by
  constructor
  · rintro ⟨program, built⟩
    have permuted := (arranges_of_build built).perm
    refine ⟨nodup_of_build built, ?_⟩
    exact (properLabels_perm_iff permuted).mp (exact_of_build built).properLabels
  · rintro ⟨distinct, proper⟩
    exact (arranges_sorted distinct).exists_build proper

end Building

/-- Records build exactly when their keys are different and their LABEL records, those with
the opcode LABEL, each declare a label of their own. The program then arranges the records,
its table leads to an instruction exactly by the name that the instruction declares, and it
has as many labels as there are LABEL records. Otherwise the first repeated key of the list
is reported, or if there is none, what is wrong with the first label of the arrangement that
is wrong. -/
theorem build_exactly (records : List Instruction) :
    (∀ record : Instruction, record.isLabel = true ↔ record.opcode? = some .label) ∧
    ((∃ program, Program.build records = .ok program) ↔
      (records.map (·.order)).Nodup ∧ ProperLabels records) ∧
    (∀ program, Program.build records = .ok program →
      Arranges records program.instructions ∧
      (∀ name place, program.labels.resolve? name = some place ↔
        DeclaredAt program.instructions name place) ∧
      program.labels.length = records.countP Instruction.isLabel) ∧
    ∀ error, Program.build records = .error error ↔
      (∃ key, error = .duplicateOrder key ∧ FirstRepeated records key) ∨
      ∃ instructions, Arranges records instructions ∧ FirstFault instructions error := by
  refine ⟨fun record => Instruction.isLabel_iff, exists_build_iff, ?_,
    fun error => build_eq_error_iff⟩
  intro program built
  have arranged := arranges_of_build built
  have exact := exact_of_build built
  refine ⟨arranged, exact.resolves, ?_⟩
  rw [exact.count, arranged.perm.countP_eq]

def twoLabels : List Instruction :=
  [⟨50, "label".toList, [⟨.label, "late".toList⟩]⟩,
    ⟨5, "LABEL".toList, [⟨.label, "early".toList⟩]⟩, ⟨10, "BREAK".toList, []⟩]

/-- Two labels build. With a third record that repeats a name and a fourth without the form
of a label the earlier one in the order of the keys is reported. A repeated key comes before
both. -/
theorem twoLabels_build :
    (∃ program, Program.build twoLabels = .ok program ∧
      Arranges twoLabels program.instructions ∧
      program.labels.resolve? "late".toList = some 2 ∧ program.labels.length = 2 ∧
      DeclaredAt program.instructions "early".toList 0) ∧
    FirstFault
      (⟨-7, "LABEL".toList, []⟩ :: Program.sorted twoLabels ++
        [⟨60, "Label".toList, [⟨.label, "late".toList⟩]⟩]) (.malformedLabel 0) ∧
    FirstRepeated (twoLabels ++ [⟨5, "LABEL".toList, []⟩]) 5 := by
  let program : Program :=
    ⟨Program.sorted twoLabels, [("early".toList, 0), ("late".toList, 2)]⟩
  have built : Program.build twoLabels = .ok program := by decide +kernel
  obtain ⟨_, _, succeeds, _⟩ := build_exactly twoLabels
  obtain ⟨arranged, resolves, count⟩ := succeeds program built
  have late : program.labels.resolve? "late".toList = some 2 := by decide
  have early : program.labels.resolve? "early".toList = some 0 := by decide
  refine ⟨⟨program, built, arranged, late, by rw [count]; decide, (resolves _ _).mp early⟩, ?_, ?_⟩
  · let faulty : List Instruction :=
      ⟨60, "Label".toList, [⟨.label, "late".toList⟩]⟩ :: ⟨-7, "LABEL".toList, []⟩ :: twoLabels
    obtain ⟨_, _, _, fails⟩ := build_exactly faulty
    have failed : Program.build faulty = .error (.malformedLabel 0) := by decide +kernel
    rcases (fails _).mp failed with ⟨key, impossible, _⟩ | ⟨instructions, arranged, fault⟩
    · cases impossible
    · have same : Program.sorted faulty = ⟨-7, "LABEL".toList, []⟩ :: Program.sorted twoLabels ++
          [⟨60, "Label".toList, [⟨.label, "late".toList⟩]⟩] := by decide +kernel
      rw [arranged.eq_sorted, same] at fault
      exact fault
  · have failed : Program.build (twoLabels ++ [⟨5, "LABEL".toList, []⟩]) =
        .error (.duplicateOrder 5) := by decide +kernel
    obtain ⟨_, _, _, fails⟩ := build_exactly (twoLabels ++ [⟨5, "LABEL".toList, []⟩])
    rcases (fails _).mp failed with ⟨key, same, first⟩ | ⟨instructions, arranged, fault⟩
    · cases same
      exact first
    · obtain ⟨place, wrong, _⟩ := fault
      cases wrong

end IPPcode24
