import IPPcode24.Proofs.Attempt
import IPPcode24.Proofs.LabelTables
import Mathlib.Data.List.Forall2
import Mathlib.Data.List.Sort

/-!
# Built programs

A list of instructions makes a program when no key is repeated, every label
instruction has the form of one, and no label is declared twice. Every place in the
label table is that of a label instruction with the name that the table gives it.
-/

namespace IPPcode24

/-! ## Keys -/

namespace Program

theorem repeatedAfter_eq_none {seen keys : List Int} :
    repeatedAfter seen keys = none ↔ keys.Nodup ∧ ∀ key ∈ keys, key ∉ seen := by
  induction keys generalizing seen with
  | nil => simp [repeatedAfter]
  | cons key rest ih =>
    rw [repeatedAfter]
    split
    · rename_i repeated
      simp [repeated]
    · rename_i new
      rw [ih]
      simp only [List.nodup_cons, List.mem_cons, forall_eq_or_imp]
      constructor
      · rintro ⟨distinct, fresh⟩
        refine ⟨⟨fun member => fresh key member (Or.inl rfl), distinct⟩, new, ?_⟩
        exact fun other member seenBefore => fresh other member (Or.inr seenBefore)
      · rintro ⟨⟨first, distinct⟩, _, fresh⟩
        refine ⟨distinct, ?_⟩
        rintro other member (rfl | seenBefore)
        · exact first member
        · exact fresh other member seenBefore

theorem repeatedKey?_eq_none {keys : List Int} : repeatedKey? keys = none ↔ keys.Nodup := by
  simp [repeatedKey?, repeatedAfter_eq_none]

/-- The key that is reported is the first one that has been seen or stands behind itself. -/
theorem repeatedAfter_eq_some {seen keys : List Int} {key : Int} :
    repeatedAfter seen keys = some key ↔
      ∃ before after, keys = before ++ key :: after ∧
        repeatedAfter seen before = none ∧ (key ∈ seen ∨ key ∈ before) := by
  induction keys generalizing seen with
  | nil => simp [repeatedAfter]
  | cons first rest ih =>
    rw [repeatedAfter]
    split
    · rename_i repeated
      constructor
      · intro found
        cases found
        exact ⟨[], rest, rfl, rfl, Or.inl repeated⟩
      · rintro ⟨before, after, split, distinct, _⟩
        cases before with
        | nil => exact congrArg some (List.cons.inj split).1
        | cons other before =>
          obtain ⟨rfl, _⟩ := List.cons.inj split
          rw [repeatedAfter, if_pos repeated] at distinct
          cases distinct
    · rename_i new
      rw [ih]
      constructor
      · rintro ⟨before, after, rfl, distinct, earlier⟩
        refine ⟨first :: before, after, rfl, ?_, ?_⟩
        · rw [repeatedAfter, if_neg new, distinct]
        · simpa [or_assoc, or_left_comm] using earlier
      · rintro ⟨before, after, split, distinct, earlier⟩
        cases before with
        | nil =>
          obtain ⟨rfl, _⟩ := List.cons.inj split
          simp [new] at earlier
        | cons other before =>
          obtain ⟨rfl, rfl⟩ := List.cons.inj split
          rw [repeatedAfter, if_neg new] at distinct
          refine ⟨before, after, rfl, distinct, ?_⟩
          simpa [or_assoc, or_left_comm] using earlier

theorem two_le_count_of_repeatedKey? {keys : List Int} {key : Int}
    (repeated : repeatedKey? keys = some key) : 2 ≤ keys.count key := by
  obtain ⟨before, after, rfl, _, impossible | earlier⟩ := repeatedAfter_eq_some.mp repeated
  · cases impossible
  · have once : 0 < before.count key := List.count_pos_iff.mpr earlier
    rw [List.count_append, List.count_cons_self]
    omega

/-! ## Sorting -/

theorem insert_eq_orderedInsert (instruction : Instruction) (records : List Instruction) :
    insert instruction records =
      records.orderedInsert (fun a b => a.order ≤ b.order) instruction := by
  induction records with
  | nil => rfl
  | cons first rest ih => rw [insert, List.orderedInsert_cons, ih]

theorem sorted_eq_insertionSort (records : List Instruction) :
    sorted records = records.insertionSort fun a b => a.order ≤ b.order := by
  induction records with
  | nil => rfl
  | cons first rest ih =>
    rw [List.insertionSort_cons, ← ih, ← insert_eq_orderedInsert]
    rfl

/-- Sorting neither adds nor drops an instruction. -/
theorem sorted_perm (records : List Instruction) : (sorted records).Perm records := by
  rw [sorted_eq_insertionSort]
  exact List.perm_insertionSort _ records

theorem mem_sorted {instruction : Instruction} {records : List Instruction} :
    instruction ∈ sorted records ↔ instruction ∈ records := (sorted_perm records).mem_iff

theorem pairwise_sorted (records : List Instruction) :
    (sorted records).Pairwise fun a b => a.order ≤ b.order := by
  have total : Std.Total fun a b : Instruction => a.order ≤ b.order :=
    ⟨fun a b => Int.le_total a.order b.order⟩
  have transitive : IsTrans Instruction fun a b => a.order ≤ b.order :=
    ⟨fun _ _ _ => Int.le_trans⟩
  rw [sorted_eq_insertionSort]
  exact List.pairwise_insertionSort _ records

/-- Instructions that stand in the order of their keys stay as they are. -/
theorem sorted_of_pairwise {records : List Instruction}
    (ascending : records.Pairwise fun a b => a.order ≤ b.order) : sorted records = records := by
  rw [sorted_eq_insertionSort]
  exact ascending.insertionSort_eq

/-- Where no two keys are the same, it does not matter how the list is arranged. -/
theorem sorted_eq_of_perm {records others : List Instruction}
    (distinct : (records.map (·.order)).Nodup) (permuted : others.Perm records) :
    sorted others = sorted records := by
  have same : (sorted others).Perm (sorted records) :=
    ((sorted_perm others).trans permuted).trans (sorted_perm records).symm
  refine same.eq_of_pairwise ?_ (pairwise_sorted others) (pairwise_sorted records)
  intro a b memberA memberB le ge
  have inRecords : a ∈ records := permuted.mem_iff.mp (mem_sorted.mp memberA)
  exact List.inj_on_of_nodup_map distinct inRecords (mem_sorted.mp memberB)
    (Int.le_antisymm le ge)

/-- Instructions can be rewritten before the sorting or after it, if their keys keep their
order. -/
theorem sorted_map {f : Instruction → Instruction} {records : List Instruction}
    (ordered : ∀ a ∈ records, ∀ b ∈ records, a.order ≤ b.order ↔ (f a).order ≤ (f b).order) :
    sorted (records.map f) = (sorted records).map f := by
  rw [sorted_eq_insertionSort, sorted_eq_insertionSort]
  exact (List.map_insertionSort _ _ f records ordered).symm

theorem forall₂_insert {related : Instruction → Instruction → Prop}
    (keys : ∀ {a b}, related a b → b.order = a.order) {record other : Instruction}
    (first : related record other) {records others : List Instruction}
    (each : List.Forall₂ related records others) :
    List.Forall₂ related (insert record records) (insert other others) := by
  induction each with
  | nil => exact .cons first .nil
  | cons next later ih =>
    rw [insert, insert, keys first, keys next]
    split
    · exact .cons first (.cons next later)
    · exact .cons next ih

/-- Records with the same keys are sorted in the same way. -/
theorem forall₂_sorted {related : Instruction → Instruction → Prop}
    (keys : ∀ {a b}, related a b → b.order = a.order) {records others : List Instruction}
    (each : List.Forall₂ related records others) :
    List.Forall₂ related (sorted records) (sorted others) := by
  induction each with
  | nil => exact .nil
  | cons first _ ih => exact forall₂_insert keys first ih

theorem forall₂_getElem? {related : Instruction → Instruction → Prop}
    {instructions others : List Instruction} (each : List.Forall₂ related instructions others)
    (place : Nat) : Option.Rel related instructions[place]? others[place]? := by
  induction each generalizing place with
  | nil => exact .none
  | cons first _ ih =>
    cases place with
    | zero => exact .some first
    | succ place => exact ih place

end Program

/-- The keys are consecutive from a first one on. -/
inductive Keyed : Int → List Instruction → Prop where
  | nil {first : Int} : Keyed first []
  | cons {first : Int} {instruction : Instruction} {rest : List Instruction}
      (key : instruction.order = first) (others : Keyed (first + 1) rest) :
      Keyed first (instruction :: rest)

namespace Keyed

variable {first : Int} {records : List Instruction}

theorem le_order (keyed : Keyed first records) :
    ∀ instruction ∈ records, first ≤ instruction.order := by
  induction keyed with
  | nil => simp
  | cons key _ ih =>
    intro other member
    rcases List.mem_cons.mp member with rfl | later
    · exact Int.le_of_eq key.symm
    · have bound := ih other later
      omega

theorem pairwise_lt (keyed : Keyed first records) :
    records.Pairwise fun a b => a.order < b.order := by
  induction keyed with
  | nil => exact .nil
  | cons key others ih =>
    refine List.pairwise_cons.mpr ⟨fun later member => ?_, ih⟩
    have bound := others.le_order later member
    omega

theorem sorted_eq (keyed : Keyed first records) : Program.sorted records = records :=
  Program.sorted_of_pairwise (keyed.pairwise_lt.imp Int.le_of_lt)

theorem nodup_order (keyed : Keyed first records) : (records.map (·.order)).Nodup :=
  List.pairwise_map.mpr (keyed.pairwise_lt.imp Int.ne_of_lt)

end Keyed

/-! ## Labels -/

namespace LabelTable

/-- A scan looks at nothing but the label instructions and the names that they declare. -/
theorem scanFrom_eq_of_forall₂ {instructions others : List Instruction}
    (alike : List.Forall₂ (fun instruction other =>
      other.isLabel = instruction.isLabel ∧
        (instruction.isLabel = true → declaredName? other = declaredName? instruction))
      instructions others) (place : Nat) (labels : LabelTable) :
    scanFrom place labels others = scanFrom place labels instructions := by
  induction alike generalizing place labels with
  | nil => rfl
  | cons first _ ih =>
    obtain ⟨isLabel, names⟩ := first
    rw [scanFrom, scanFrom, isLabel]
    split
    · rename_i declares
      simp only [names declares, ih]
    · exact ih _ _

theorem scanFrom_map {f : Instruction → Instruction}
    (isLabel : ∀ instruction, (f instruction).isLabel = instruction.isLabel)
    (names : ∀ instruction, instruction.isLabel = true →
      declaredName? (f instruction) = declaredName? instruction)
    (place : Nat) (labels : LabelTable) (instructions : List Instruction) :
    scanFrom place labels (instructions.map f) = scanFrom place labels instructions := by
  apply scanFrom_eq_of_forall₂
  rw [List.forall₂_map_right_iff, List.forall₂_same]
  exact fun instruction _ => ⟨isLabel instruction, names instruction⟩

end LabelTable

/-! ## Building -/

namespace Program

variable {records : List Instruction} {program : Program}

theorem build_eq_ok (built : build records = .ok program) :
    program.instructions = sorted records ∧
      LabelTable.scan program.instructions = .ok program.labels := by
  rw [build] at built
  split at built
  · cases built
  · obtain ⟨labels, scanned, made⟩ := Chain.bind_eq_ok.mp built
    cases made
    exact ⟨rfl, scanned⟩

theorem build_of_nodup (distinct : (records.map (·.order)).Nodup) :
    build records = (LabelTable.scan (sorted records)).map (⟨sorted records, ·⟩) := by
  rw [build, repeatedKey?_eq_none.mpr distinct]
  rfl

/-- A list that repeats a key is no program, whatever else is wrong with it, and the error
names a key that is repeated. -/
theorem build_of_not_nodup (repeats : ¬ (records.map (·.order)).Nodup) :
    ∃ key, 2 ≤ (records.map (·.order)).count key ∧
      build records = .error (.duplicateOrder key) := by
  rw [← repeatedKey?_eq_none] at repeats
  obtain ⟨key, repeated⟩ := Option.ne_none_iff_exists'.mp repeats
  exact ⟨key, two_le_count_of_repeatedKey? repeated, by rw [build, repeated]⟩

theorem build_of_keyed {first : Int} (keyed : Keyed first records) :
    build records = (LabelTable.scan records).map (⟨records, ·⟩) := by
  rw [build_of_nodup keyed.nodup_order, keyed.sorted_eq]

theorem instructions_of_keyed {first : Int} (keyed : Keyed first records)
    (built : build records = .ok program) : program.instructions = records :=
  (build_eq_ok built).1.trans keyed.sorted_eq

/-- A label of a built program leads to an instruction that declares it. -/
theorem label_of_resolve? {name : Text} {place : Nat} (built : build records = .ok program)
    (resolved : program.labels.resolve? name = some place) :
    ∃ instruction, program.instructions[place]? = some instruction ∧
      instruction.opcode? = some .label ∧
      LabelTable.declaredName? instruction = some name := by
  have exact := LabelTable.exact_of_scan (build_eq_ok built).2
  obtain ⟨instruction, found, declares⟩ := (exact.resolves name place).mp resolved
  exact ⟨instruction, found, Instruction.isLabel_iff.mp declares.isLabel,
    LabelTable.declaredName?_eq_some_iff.mpr declares.operands⟩

end Program

end IPPcode24
