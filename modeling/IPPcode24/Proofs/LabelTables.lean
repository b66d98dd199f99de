import IPPcode24.Program
import IPPcode24.Proofs.Mnemonics

/-!
# Label tables

The table that a scan gives has the place of every label of the sequence and of nothing
else. A scan that gives none reports the first label instruction that has not the form of
one or declares a label for the second time. Both are carried along the scan as facts about
the instructions scanned so far.
-/

namespace IPPcode24

/-- The instruction is a LABEL whose only operand is the label with the name. -/
structure Instruction.Declares (instruction : Instruction) (name : Text) : Prop where
  isLabel : instruction.isLabel = true
  operands : instruction.operands = [⟨.label, name⟩]

/-- The instruction at a place declares the label with the name. -/
def DeclaredAt (instructions : List Instruction) (name : Text) (place : Nat) : Prop :=
  ∃ instruction, instructions[place]? = some instruction ∧ instruction.Declares name

/-- What is wrong with the label instruction at a place: it has not the form of one, or an
earlier one declares the same name. -/
inductive LabelFault (instructions : List Instruction) (place : Nat) : BuildError → Prop where
  | malformed {instruction : Instruction} (found : instructions[place]? = some instruction)
      (isLabel : instruction.isLabel = true) (unformed : ∀ name, ¬ instruction.Declares name) :
      LabelFault instructions place (.malformedLabel place)
  | repeated {name : Text} {earlier : Nat} (before : earlier < place)
      (first : DeclaredAt instructions name earlier)
      (again : DeclaredAt instructions name place) :
      LabelFault instructions place (.duplicateLabel name place)

/-- No label instruction at an earlier place is wrong. -/
def FlawlessBelow (instructions : List Instruction) (place : Nat) : Prop :=
  ∀ earlier < place, ∀ error, ¬ LabelFault instructions earlier error

/-- What is wrong with the first label instruction that is wrong. -/
def FirstFault (instructions : List Instruction) (error : BuildError) : Prop :=
  ∃ place, LabelFault instructions place error ∧ FlawlessBelow instructions place

/-! ## Sequences with more instructions -/

section Append

variable {done rest : List Instruction} {first : Instruction} {name : Text} {place : Nat}

theorem DeclaredAt.lt_length {instructions : List Instruction}
    (declared : DeclaredAt instructions name place) : place < instructions.length := by
  obtain ⟨_, found, _⟩ := declared
  exact (List.getElem?_eq_some_iff.mp found).1

theorem declaredAt_append_iff (within : place < done.length) :
    DeclaredAt (done ++ rest) name place ↔ DeclaredAt done name place := by
  rw [DeclaredAt, DeclaredAt, List.getElem?_append_left within]

theorem declaredAt_concat_iff :
    DeclaredAt (done ++ [first]) name place ↔
      DeclaredAt done name place ∨ place = done.length ∧ first.Declares name := by
  constructor
  · intro declared
    have bound := declared.lt_length
    rw [List.length_append, List.length_singleton] at bound
    by_cases within : place < done.length
    · exact Or.inl ((declaredAt_append_iff within).mp declared)
    · have last : place = done.length := by omega
      subst last
      obtain ⟨instruction, found, declares⟩ := declared
      rw [List.getElem?_concat_length] at found
      cases found
      exact Or.inr ⟨rfl, declares⟩
  · rintro (declared | ⟨rfl, declares⟩)
    · exact (declaredAt_append_iff declared.lt_length).mpr declared
    · exact ⟨first, List.getElem?_concat_length, declares⟩

/-- Whether a label instruction is wrong does not depend on what comes after it. -/
theorem labelFault_append_iff {error : BuildError} (within : place < done.length) :
    LabelFault (done ++ rest) place error ↔ LabelFault done place error := by
  constructor
  · intro fault
    cases fault with
    | malformed found isLabel unformed =>
      rw [List.getElem?_append_left within] at found
      exact .malformed found isLabel unformed
    | repeated before first again =>
      refine .repeated before ?_ ((declaredAt_append_iff within).mp again)
      exact (declaredAt_append_iff (Nat.lt_trans before within)).mp first
  · intro fault
    cases fault with
    | malformed found isLabel unformed =>
      rw [← List.getElem?_append_left within] at found
      exact .malformed found isLabel unformed
    | repeated before first again =>
      refine .repeated before ?_ ((declaredAt_append_iff within).mpr again)
      exact (declaredAt_append_iff (Nat.lt_trans before within)).mpr first

theorem LabelFault.lt_length {instructions : List Instruction} {error : BuildError}
    (fault : LabelFault instructions place error) : place < instructions.length := by
  cases fault with
  | malformed found isLabel unformed => exact (List.getElem?_eq_some_iff.mp found).1
  | repeated before first again => exact again.lt_length

end Append

namespace LabelTable

/-! ## Scans -/

theorem declaredName?_eq_some_iff {instruction : Instruction} {name : Text} :
    declaredName? instruction = some name ↔ instruction.operands = [⟨.label, name⟩] := by
  rw [declaredName?]
  split
  · rename_i operand single
    rw [single]
    obtain ⟨operandClass, text⟩ := operand
    simp
  · rename_i several
    constructor
    · exact nofun
    · intro single
      exact absurd single (several _)

/-- The table has the place of every label of the instructions and of nothing else, and
nothing is wrong with the instructions. -/
structure Exact (labels : LabelTable) (instructions : List Instruction) : Prop where
  resolves : ∀ name place,
    labels.resolve? name = some place ↔ DeclaredAt instructions name place
  count : labels.length = instructions.countP Instruction.isLabel
  flawless : FlawlessBelow instructions instructions.length

theorem exact_nil : Exact [] [] := by
  refine ⟨fun name place => ⟨nofun, ?_⟩, rfl, nofun⟩
  rintro ⟨_, found, _⟩
  cases found

section Steps

variable {labels : LabelTable} {done rest : List Instruction} {first : Instruction} {name : Text}

theorem Exact.flawlessBelow (exact : labels.Exact done) (rest : List Instruction) :
    FlawlessBelow (done ++ rest) done.length := by
  intro earlier before error fault
  exact exact.flawless earlier before error ((labelFault_append_iff before).mp fault)

theorem Exact.flawless_concat (exact : labels.Exact done)
    (right : ∀ error, ¬ LabelFault (done ++ [first]) done.length error) :
    FlawlessBelow (done ++ [first]) (done ++ [first]).length := by
  intro place before error fault
  rw [List.length_append, List.length_singleton] at before
  by_cases within : place < done.length
  · exact exact.flawlessBelow [first] place within error fault
  · have last : place = done.length := by omega
    exact right error (last ▸ fault)

/-- An instruction that is no label instruction leaves the table exact. -/
theorem Exact.concat_other (exact : labels.Exact done) (other : ¬ first.isLabel = true) :
    labels.Exact (done ++ [first]) := by
  refine ⟨fun name place => ?_, ?_, exact.flawless_concat ?_⟩
  · rw [exact.resolves, declaredAt_concat_iff]
    constructor
    · exact Or.inl
    · rintro (declared | ⟨_, declares⟩)
      · exact declared
      · exact absurd declares.isLabel other
  · rw [exact.count, List.countP_append, List.countP_singleton, if_neg other]
    rfl
  · intro error fault
    cases fault with
    | malformed found isLabel unformed =>
      rw [List.getElem?_concat_length] at found
      cases found
      exact other isLabel
    | repeated before earlier again =>
      obtain ⟨instruction, found, declares⟩ := again
      rw [List.getElem?_concat_length] at found
      cases found
      exact other declares.isLabel

theorem resolve?_concat (other : Text) (place : Nat) :
    resolve? (labels ++ [(name, place)]) other =
      (labels.resolve? other).or (if other = name then some place else none) := by
  rw [resolve?, resolve?, List.lookup_append, List.lookup_cons, List.lookup_nil]
  by_cases same : other = name
  · simp [same]
  · have differs : (other == name) = false := beq_eq_false_iff_ne.mpr same
    rw [differs, if_neg same]

theorem Exact.concat_label (exact : labels.Exact done) (declares : first.Declares name)
    (new : labels.resolve? name = none) :
    Exact (labels ++ [(name, done.length)]) (done ++ [first]) := by
  have fresh (place : Nat) : ¬ DeclaredAt done name place := by
    intro declared
    rw [← exact.resolves, new] at declared
    cases declared
  have only {other : Text} (declaresToo : first.Declares other) : other = name := by
    have same := declaresToo.operands.symm.trans declares.operands
    cases same
    rfl
  refine ⟨fun other place => ?_, ?_, exact.flawless_concat ?_⟩
  · rw [resolve?_concat, Option.or_eq_some_iff, exact.resolves, declaredAt_concat_iff]
    constructor
    · rintro (declared | ⟨_, added⟩)
      · exact Or.inl declared
      · rw [Option.ite_none_right_eq_some] at added
        obtain ⟨rfl, same⟩ := added
        exact Or.inr ⟨(Option.some.inj same).symm, declares⟩
    · rintro (declared | ⟨rfl, declaresToo⟩)
      · exact Or.inl declared
      · rw [only declaresToo]
        exact Or.inr ⟨new, if_pos rfl⟩
  · rw [List.length_append, exact.count, List.countP_append, List.countP_singleton,
      if_pos declares.isLabel]
    rfl
  · intro error fault
    cases fault with
    | malformed found isLabel unformed =>
      rw [List.getElem?_concat_length] at found
      cases found
      exact unformed name declares
    | repeated before earlier again =>
      obtain ⟨instruction, found, declaresToo⟩ := again
      rw [List.getElem?_concat_length] at found
      cases found
      rw [only declaresToo] at earlier
      exact fresh _ ((declaredAt_append_iff before).mp earlier)

theorem Exact.firstFault_malformed (exact : labels.Exact done) (isLabel : first.isLabel = true)
    (unnamed : declaredName? first = none) :
    FirstFault (done ++ first :: rest) (.malformedLabel done.length) := by
  refine ⟨done.length, .malformed (by simp) isLabel ?_, exact.flawlessBelow _⟩
  intro name declares
  rw [declaredName?_eq_some_iff.mpr declares.operands] at unnamed
  cases unnamed

theorem Exact.firstFault_repeated (exact : labels.Exact done) (declares : first.Declares name)
    (known : (labels.resolve? name).isSome = true) :
    FirstFault (done ++ first :: rest) (.duplicateLabel name done.length) := by
  obtain ⟨earlier, resolved⟩ := Option.isSome_iff_exists.mp known
  have declared := (exact.resolves name earlier).mp resolved
  have before := declared.lt_length
  refine ⟨done.length, .repeated before ?_ ⟨first, by simp, declares⟩, exact.flawlessBelow _⟩
  exact (declaredAt_append_iff before).mpr declared

end Steps

/-- What a scan has come to. -/
def Scanned (instructions : List Instruction) : Except BuildError LabelTable → Prop
  | .ok labels => labels.Exact instructions
  | .error error => FirstFault instructions error

theorem scanned_scanFrom {labels : LabelTable} {done : List Instruction}
    (exact : labels.Exact done) (rest : List Instruction) :
    Scanned (done ++ rest) (scanFrom done.length labels rest) := by
  -- the instructions scanned so far grow along the scan, and the table with them
  induction rest generalizing done labels with
  | nil =>
    rw [List.append_nil]
    exact exact
  | cons first rest ih =>
    have moves : done ++ first :: rest = (done ++ [first]) ++ rest := by simp
    have next : done.length + 1 = (done ++ [first]).length := by simp
    rw [scanFrom]
    split
    · rename_i isLabel
      split
      · rename_i unnamed
        exact exact.firstFault_malformed isLabel unnamed
      · rename_i name named
        have declares : first.Declares name := ⟨isLabel, declaredName?_eq_some_iff.mp named⟩
        split
        · rename_i known
          exact exact.firstFault_repeated declares known
        · rename_i unknown
          rw [Option.not_isSome_iff_eq_none] at unknown
          rw [moves, next]
          exact ih (exact.concat_label declares unknown)
    · rename_i other
      rw [moves, next]
      exact ih (exact.concat_other other)

/-- A scan gives an exact table, or it fails as the first label instruction that is wrong. -/
theorem scanned_scan (instructions : List Instruction) : Scanned instructions (scan instructions) :=
  scanned_scanFrom exact_nil instructions

variable {instructions : List Instruction}

theorem exact_of_scan {labels : LabelTable} (scanned : scan instructions = .ok labels) :
    labels.Exact instructions := by
  have came := scanned_scan instructions
  rwa [scanned] at came

theorem firstFault_of_scan {error : BuildError} (failed : scan instructions = .error error) :
    FirstFault instructions error := by
  have came := scanned_scan instructions
  rwa [failed] at came

end LabelTable

/-- Only one label instruction is the first that is wrong, and only one thing is wrong with
it. -/
theorem FirstFault.eq {instructions : List Instruction} {error other : BuildError}
    (fault : FirstFault instructions error) (faultToo : FirstFault instructions other) :
    other = error := by
  obtain ⟨place, wrong, flawless⟩ := fault
  obtain ⟨place', wrongToo, flawlessToo⟩ := faultToo
  have same : place' = place := by
    by_cases below : place < place'
    · exact absurd wrong (flawlessToo place below error)
    · by_cases above : place' < place
      · exact absurd wrongToo (flawless place' above other)
      · omega
  subst same
  cases wrong with
  | malformed found isLabel unformed =>
    cases wrongToo with
    | malformed => rfl
    | repeated before first again =>
      obtain ⟨instruction, foundToo, declares⟩ := again
      rw [found] at foundToo
      cases foundToo
      exact absurd declares (unformed _)
  | repeated before first again =>
    obtain ⟨instruction, found, declares⟩ := again
    cases wrongToo with
    | malformed foundToo isLabel unformed =>
      rw [found] at foundToo
      cases foundToo
      exact absurd declares (unformed _)
    | repeated beforeToo firstToo againToo =>
      obtain ⟨instruction', foundToo, declaresToo⟩ := againToo
      rw [found] at foundToo
      cases foundToo
      have same := declares.operands.symm.trans declaresToo.operands
      cases same
      rfl

end IPPcode24
