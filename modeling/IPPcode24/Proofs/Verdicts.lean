import IPPcode24.Proofs.Steps
import IPPcode24.Proofs.Targets

/-!
# Verdicts on an instruction

The checks that an instruction can fail, each as a function of the state and the instruction
alone, and their order. A check gives a verdict: the fault that it finds, or nothing. Verdicts
predict an attempt when it fails with the first fault that they find and succeeds when they
find none; what a chain of attempts does is predicted link by link.
-/

namespace IPPcode24

/-- What a check finds wrong, if anything. -/
abbrev Verdict := Option Fault

/-- What the first check finds that finds anything. -/
def earliest (verdicts : List Verdict) : Verdict := verdicts.findSome? id

/-! ## Checks of the operands -/

def countVerdict (opcode : Opcode) (operands : List Operand) : Verdict :=
  if operands.length < opcode.signature.length then
    some (.operandCount opcode operands.length)
  else none

/-- The slot at a position must accept the class of its operand. -/
def slotVerdict (position : Nat) (slot : Slot) (operand : Operand) : Verdict :=
  if slot.accepts operand.operandClass then none
  else some (.operandClass position slot operand.operandClass)

def slotVerdicts (position : Nat) : List Slot → List Operand → List Verdict
  | slot :: slots, operand :: operands =>
    slotVerdict position slot operand :: slotVerdicts (position + 1) slots operands
  | _, _ => []

/-- A third operand of NOTS must be a symbol. -/
def thirdVerdict (opcode : Opcode) (operands : List Operand) : Verdict :=
  if opcode = .nots then operands[2]?.bind (slotVerdict 2 .symbol) else none

/-- A label to go to must be declared. -/
def labelVerdict (action : Action) (labels : LabelTable) (operands : List Operand) : Verdict :=
  if action.namesLabel then
    operands.head?.bind fun operand =>
      if (labels.resolve? operand.text).isSome then none
      else some (.labelUndefined operand.text)
  else none

/-- The operand must name a variable of a frame that exists, and what the frame has under the
name is judged. -/
def variableVerdict (frames : Frames) (operand : Operand)
    (judge : Variable → Option Value → Verdict) : Verdict :=
  match Variable.ofSource? operand.text with
  | none => some (.operandValue (.notVariable operand.text))
  | some ref =>
    match frames.frame? ref.tag with
    | none => some (.frameUndefined ref.tag)
    | some frame => judge ref (frame.get? ref.name)

/-- A variable to be looked up must be declared and, but for TYPE, have a value. -/
def contentVerdict (action : Action) (ref : Variable) : Option Value → Verdict
  | none => some (.variableUndefined ref)
  | some value =>
    if value = .uninitialized ∧ action ≠ .typeOf then some .missingValue else none

def resolutionVerdict (action : Action) (frames : Frames) (operand : Operand) : Verdict :=
  match operand.operandClass with
  | .var => variableVerdict frames operand (contentVerdict action)
  | .literal kind =>
    match Literal.decode kind operand.text with
    | .ok (some _) => none
    | _ => some (.operandValue (.notLiteral kind operand.text))
  | .label | .type => none

/-! ## Checks of the values -/

/-- What an action needs its values to be, in order. -/
def Action.requirements : Action → List Requirement
  | arithmetic _ => [.int, .int]
  | connective _ => [.bool, .bool]
  | negation => [.bool]
  | intToChar | exit | intToFloat => [.int]
  | charToInt | getChar => [.string, .int]
  | read => [.typeName]
  | concat => [.string, .string]
  | length => [.string]
  | setChar => [.string, .int, .string]
  | floatToInt => [.float]
  | _ => []

/-- A value must be of the kind that is required. A float serves as an integer when it has no
fraction. -/
def Requirement.verdict (required : Requirement) (value : Value) : Verdict :=
  match required, value with
  | .int, .int _ | .bool, .bool _ | .string, .string _ | .float, .float _ => none
  | .int, .float x =>
    if x.integral?.isSome then none else some (.operandValue (.mismatch (.fractional x)))
  | .typeName, .string text =>
    if (Kind.ofName? text).isSome then none else some (.operandValue (.notTypeName text))
  | required, value => some (value.unfit required)

/-- Two values must have an order, or be equal or not when nothing else is asked. -/
def comparisonVerdict (wanted : Relation) (left right : Value) : Verdict :=
  if left = .uninitialized ∨ right = .uninitialized then some .missingValue
  else if left = .nil ∨ right = .nil then
    if wanted = .eq then none
    else some (.operandValue (.mismatch (.unordered left.kind right.kind)))
  else
    match left, right with
    | .int _, .float x =>
      if x.integral?.isSome then none else some (.operandValue (.mismatch (.fractional x)))
    | .float x, .int _ =>
      if x.toInt?.isSome then none else some (.operandValue (.mismatch (.noInteger x)))
    | left, right =>
      if left.kind = right.kind then none
      else some (.operandValue (.mismatch (.incomparable left.kind right.kind)))

def indexVerdict (text : Text) (index : Int64) : Verdict :=
  if 0 ≤ index.toInt ∧ index.toInt < text.length then none
  else some (.character (.outOfRange index text.length))

/-- What an operation finds wrong with values of the kinds that it needs. -/
def Action.operationVerdict : Action → List Value → Verdict
  | arithmetic .idiv, [_, right] => if right.asInt = .ok 0 then some .divisionByZero else none
  | relation wanted, [left, right] => comparisonVerdict wanted left right
  | jumpIf _, [left, right] => comparisonVerdict .eq left right
  | intToChar, [value] => do
    let code ← value.asInt.toOption
    if 0 ≤ code.toInt ∧ code.toInt.toNat.isValidChar then none
    else some (.character (.notCodePoint code))
  | charToInt, [text, index] | getChar, [text, index] => do
    indexVerdict (← text.asText.toOption) (← index.asInt.toOption)
  | setChar, [current, index, replacement] => do
    let text ← current.asText.toOption
    let index ← index.asInt.toOption
    let replacement ← replacement.asText.toOption
    if replacement = [] then some (.character .emptyReplacement) else indexVerdict text index
  | length, [value] => do
    let text ← value.asText.toOption
    if text.length < 0x8000000000000000 then none else some (.internal .lengthOutOfRange)
  | floatToInt, [value] => do
    let x ← value.asFloat.toOption
    if x.toInt?.isSome then none else some (.operandValue (.mismatch (.noInteger x)))
  | exit, [value] => do
    let code ← value.asInt.toOption
    if 0 ≤ code.toInt ∧ code.toInt < 10 then none else some (.exitCode code)
  | write, [value] => if value.written = [] then some .missingValue else none
  | _, _ => none

/-! ## Checks of the machine -/

/-- There must be a frame to push or to pop, and a call to return from. -/
def Machine.stackVerdict (machine : Machine) : Action → Verdict
  | .pushFrame => if machine.frames.temporary = none then some (.frameUndefined .tf) else none
  | .popFrame => if machine.frames.locals = [] then some (.frameUndefined .lf) else none
  | .ret => if machine.calls = [] then some .emptyCallStack else none
  | _ => none

/-- A variable to be assigned to must be declared, and one to be declared must not. -/
def targetVerdict (action : Action) (ref : Variable) : Option Value → Verdict
  | some _ => if action = .define then some (.variableRedefined ref) else none
  | none => if action = .define then none else some (.variableUndefined ref)

/-- The destination of an action is the variable that its first operand names. -/
def destinationVerdict (action : Action) (frames : Frames) (operands : List Operand) : Verdict :=
  match action.signature, operands with
  | .var :: _, target :: _ => variableVerdict frames target (targetVerdict action)
  | _, _ => none

/-- The sink must take what is written. -/
def Machine.sinkVerdict (machine : Machine) : Action → List Value → Verdict
  | .write, [value] =>
    (machine.output.sink.refusal? machine.output.past value.written).map
      fun (error, _) => .output error
  | _, _ => none

/-- The verdicts on an instruction: on its opcode, on the number and the classes of its
operands, on the label, on each argument in the order of evaluation, on the kinds of the values
in the same order, on the operation, and last on the destination and the sink. -/
def Machine.verdicts (machine : Machine) (labels : LabelTable) (instruction : Instruction) :
    List Verdict :=
  match instruction.opcode? with
  | none => [some (.unknownOpcode instruction.mnemonic)]
  | some opcode =>
    let operands := instruction.operands
    let action := opcode.action
    let arguments := action.arguments opcode.symbolOrder operands
    let value? := fun operand => (action.lookUp machine.frames operand).toOption
    let values? := arguments.mapM value?
    countVerdict opcode operands :: slotVerdicts 0 opcode.signature operands ++
      [thirdVerdict opcode operands, labelVerdict action labels operands] ++
      arguments.map (resolutionVerdict action machine.frames) ++
      List.zipWith (fun required operand => (value? operand).bind required.verdict)
        action.requirements arguments ++
      [values?.bind action.operationVerdict, machine.stackVerdict action,
        destinationVerdict action machine.frames operands,
        values?.bind (machine.sinkVerdict action)]

/-! ## Predictions -/

/-- The attempt succeeds when the verdicts find nothing and fails with the first fault that they
find, unless it crashes. -/
structure Predicts {α : Type} (verdicts : List Verdict) (attempt : Attempt α) : Prop where
  ok : ∀ a, attempt = .ok a → earliest verdicts = none
  error : ∀ fault, attempt = .error (.error fault) → earliest verdicts = some fault

theorem earliest_append (verdicts more : List Verdict) :
    earliest (verdicts ++ more) = (earliest verdicts).or (earliest more) :=
  List.findSome?_append

theorem earliest_cons (verdict : Verdict) (verdicts : List Verdict) :
    earliest (verdict :: verdicts) = verdict.or (earliest verdicts) := by
  cases verdict <;> rfl

theorem earliest_eq_none_iff {verdicts : List Verdict} :
    earliest verdicts = none ↔ ∀ verdict ∈ verdicts, verdict = none :=
  List.findSome?_eq_none_iff

namespace Predicts

variable {α β : Type} {verdicts more : List Verdict} {verdict : Verdict} {attempt : Attempt α}

theorem of_ok (a : α) : Predicts [] (.ok a : Attempt α) := by
  refine ⟨fun _ _ => rfl, ?_⟩
  intro fault failed
  cases failed

theorem of_fail (fault : Fault) : Predicts (some fault :: more) (fail fault : Attempt α) := by
  refine ⟨nofun, ?_⟩
  intro other failed
  cases failed
  rfl

theorem of_crash (crash : Crash) : Predicts verdicts (.error (.crash crash) : Attempt α) := by
  refine ⟨nofun, ?_⟩
  intro fault failed
  cases failed

theorem congr (predicts : Predicts verdicts attempt) (same : earliest more = earliest verdicts) :
    Predicts more attempt :=
  ⟨same ▸ predicts.ok, same ▸ predicts.error⟩

/-- A check that finds nothing may stand before the others. -/
theorem skip (predicts : Predicts verdicts attempt) (nothing : verdict = none) :
    Predicts (verdict :: verdicts) attempt := by
  refine predicts.congr ?_
  rw [earliest_cons, nothing, Option.none_or]

/-- Checks that find nothing may stand behind the others. -/
theorem pad (predicts : Predicts verdicts attempt) (nothing : ∀ verdict ∈ more, verdict = none) :
    Predicts (verdicts ++ more) attempt := by
  refine predicts.congr ?_
  rw [earliest_append, earliest_eq_none_iff.mpr nothing, Option.or_none]

theorem alone (only : Predicts [verdict] attempt) (nothing : ∀ other ∈ more, other = none) :
    Predicts (verdict :: more) attempt := only.pad nothing

theorem bind {next : α → Attempt β} (first : Predicts verdicts attempt)
    (rest : ∀ a, attempt = .ok a → Predicts more (next a)) :
    Predicts (verdicts ++ more) (attempt >>= next) := by
  constructor
  · intro b succeeded
    obtain ⟨a, given, succeeded⟩ := Chain.bind_eq_ok.mp succeeded
    rw [earliest_append, first.ok a given, Option.none_or]
    exact (rest a given).ok b succeeded
  · intro fault failed
    rw [earliest_append]
    rcases Chain.bind_eq_error.mp failed with failed | ⟨a, given, failed⟩
    · rw [first.error fault failed, Option.some_or]
    · rw [first.ok a given, Option.none_or]
      exact (rest a given).error fault failed

theorem cons {next : α → Attempt β} (first : Predicts [verdict] attempt)
    (rest : ∀ a, attempt = .ok a → Predicts more (next a)) :
    Predicts (verdict :: more) (attempt >>= next) := bind first rest

theorem last {next : α → β} (only : Predicts verdicts attempt) :
    Predicts verdicts (attempt >>= fun a => .ok (next a)) := by
  have predicts : Predicts (verdicts ++ []) (attempt >>= fun a => .ok (next a)) :=
    only.bind fun a _ => .of_ok (next a)
  rwa [List.append_nil] at predicts

theorem orError {attempt : Except Fault α} (ok : ∀ a, attempt = .ok a → verdict = none)
    (error : ∀ fault, attempt = .error fault → verdict = some fault) :
    Predicts [verdict] (orError attempt) := by
  constructor
  · intro a succeeded
    rw [earliest_cons, ok a (orError_eq_ok.mp succeeded)]
    rfl
  · intro fault failed
    obtain ⟨other, refused, same⟩ := orError_eq_error.mp failed
    cases same
    rw [earliest_cons, error fault refused]
    rfl

/-- An attempt for each element is predicted by a verdict on each. -/
theorem mapM {elements : List α} {each : α → Attempt β} {check : α → Verdict}
    (predicts : ∀ element ∈ elements, Predicts [check element] (each element)) :
    Predicts (elements.map check) (elements.mapM each) := by
  induction elements with
  | nil =>
    rw [List.mapM_nil]
    exact .of_ok []
  | cons element rest ih =>
    rw [List.map_cons, List.mapM_cons]
    refine .cons (predicts element List.mem_cons_self) fun first _ => ?_
    exact (ih fun other member => predicts other (List.mem_cons_of_mem _ member)).last

end Predicts

/-! ## Operands -/

section Operands

variable {opcode : Opcode} {action : Action} {labels : LabelTable} {frames : Frames}
variable {operands : List Operand} {operand : Operand}

theorem predicts_checkClass (position : Nat) (slot : Slot) (operand : Operand) :
    Predicts [slotVerdict position slot operand]
      (orError (checkClass slot position operand.operandClass)) := by
  refine .orError ?_ ?_
  · intro _ accepted
    rw [slotVerdict, if_pos (checkClass_eq_ok.mp accepted)]
  · intro fault refused
    obtain ⟨notAccepted, rfl⟩ := checkClass_eq_error.mp refused
    rw [slotVerdict, notAccepted]
    rfl

theorem predicts_checkClasses (position : Nat) (slots : List Slot) (operands : List Operand) :
    Predicts (slotVerdicts position slots operands)
      (orError (checkClasses position slots operands)) := by
  induction slots generalizing position operands with
  | nil => exact .of_ok ()
  | cons slot slots ih =>
    cases operands with
    | nil => exact .of_ok ()
    | cons operand operands =>
      have chain : orError (checkClasses position (slot :: slots) (operand :: operands)) =
          orError (checkClass slot position operand.operandClass) >>= fun _ =>
            orError (checkClasses (position + 1) slots operands) := by
        rw [checkClasses]
        cases checkClass slot position operand.operandClass <;> rfl
      rw [chain]
      exact .cons (predicts_checkClass position slot operand) fun _ _ => ih _ _

theorem predicts_checkOperands (opcode : Opcode) (operands : List Operand) :
    Predicts (countVerdict opcode operands :: slotVerdicts 0 opcode.signature operands)
      (orError (checkOperands opcode operands)) := by
  rw [checkOperands, countVerdict]
  split
  · exact .of_fail _
  · exact (predicts_checkClasses 0 opcode.signature operands).skip rfl

theorem predicts_requireSymbol :
    Predicts [thirdVerdict opcode operands]
      (opcode.action.requireSymbol opcode.symbolOrder operands) := by
  by_cases negates : opcode = .nots
  · subst negates
    rcases operands with _ | ⟨a, _ | ⟨b, _ | ⟨c, rest⟩⟩⟩
    · exact (Predicts.of_ok ()).skip rfl
    · exact (Predicts.of_ok ()).skip rfl
    · exact (Predicts.of_ok ()).skip rfl
    · exact predicts_checkClass 2 .symbol c
  · rw [requireSymbol_of_ne_nots negates, thirdVerdict, if_neg negates]
    exact (Predicts.of_ok ()).skip rfl

theorem predicts_requireLabel :
    Predicts [labelVerdict action labels operands] (action.requireLabel labels operands) := by
  cases names : action.namesLabel with
  | false =>
    rw [Action.requireLabel_of_not names, labelVerdict, names]
    exact (Predicts.of_ok ()).skip rfl
  | true =>
    cases operands with
    | nil =>
      rw [labelVerdict, names]
      exact (Predicts.of_ok ()).skip rfl
    | cons operand rest =>
      rw [labelVerdict, if_pos names, Action.requireLabel, if_pos names, LabelTable.target,
        List.head?_cons, Option.bind_some]
      cases labels.resolve? operand.text with
      | none => exact .of_fail _
      | some place => exact (Predicts.of_ok ()).skip rfl

/-- The class of a third operand and the label: no instruction has both. -/
theorem predicts_requirements :
    Predicts [thirdVerdict opcode operands, labelVerdict opcode.action labels operands]
      (opcode.action.requireLabel labels operands >>= fun _ =>
        opcode.action.requireSymbol opcode.symbolOrder operands) := by
  by_cases negates : opcode = .nots
  · subst negates
    rw [Action.requireLabel_of_not rfl]
    refine predicts_requireSymbol.pad ?_
    rintro verdict (_ | ⟨_, ⟨⟩⟩)
    rfl
  · rw [requireSymbol_of_ne_nots negates]
    refine predicts_requireLabel.last.skip ?_
    rw [thirdVerdict, if_neg negates]

end Operands

/-! ## Arguments -/

section Arguments

variable {action : Action} {frames : Frames} {operands : List Operand} {operand : Operand}

theorem predicts_variable {α : Type} {next : Variable → Attempt α}
    {judge : Variable → Option Value → Verdict}
    (absent : ∀ ref, frames.frame? ref.tag = none →
      Predicts [some (.frameUndefined ref.tag)] (next ref))
    (present : ∀ ref frame, frames.frame? ref.tag = some frame →
      Predicts [judge ref (frame.get? ref.name)] (next ref)) :
    Predicts [variableVerdict frames operand judge] (operand.reference >>= next) := by
  rw [Operand.reference, variableVerdict]
  cases Variable.ofSource? operand.text with
  | none => exact .of_fail _
  | some ref =>
    simp only
    cases found : frames.frame? ref.tag with
    | none => exact absent ref found
    | some frame => exact present ref frame found

/-- TYPE looks at the content of a variable. -/
theorem predicts_content (isVar : operand.operandClass = .var) :
    Predicts [variableVerdict frames operand (contentVerdict .typeOf)]
      (frames.content operand) := by
  rw [Frames.content, if_pos isVar]
  refine predicts_variable (fun ref absent => ?_) (fun ref frame present => ?_)
  · rw [Frames.get, absent]
    exact .of_fail _
  · simp only [Frames.get, present]
    cases frame.get? ref.name with
    | none => exact .of_fail _
    | some value =>
      refine (Predicts.of_ok value).skip ?_
      simp [contentVerdict]

theorem predicts_value (isVar : operand.operandClass = .var) (other : action ≠ .typeOf) :
    Predicts [variableVerdict frames operand (contentVerdict action)] (frames.value operand) := by
  rw [Frames.value, Frames.content, if_pos isVar, bind_assoc]
  refine predicts_variable (fun ref absent => ?_) (fun ref frame present => ?_)
  · rw [Frames.get, absent]
    exact .of_fail _
  · simp only [Frames.get, present]
    cases frame.get? ref.name with
    | none => exact .of_fail _
    | some value =>
      cases value with
      | uninitialized =>
        have missing : contentVerdict action ref (some .uninitialized) = some .missingValue :=
          if_pos ⟨rfl, other⟩
        rw [missing]
        exact .of_fail _
      | int _ | bool _ | string _ | float _ | nil =>
        refine (Predicts.of_ok _).skip ?_
        simp [contentVerdict]

theorem predicts_literal {kind : Kind} (isLiteral : operand.operandClass = .literal kind) :
    Predicts [resolutionVerdict action frames operand] operand.literal := by
  simp only [resolutionVerdict, Operand.literal, isLiteral]
  cases Literal.decode kind operand.text with
  | error crash => exact .of_crash crash
  | ok value? =>
    cases value? with
    | none => exact .of_fail _
    | some value => exact (Predicts.of_ok value).skip rfl

/-- A literal has a value for every action that looks it up. -/
theorem lookUp_of_literal {kind : Kind} (isLiteral : operand.operandClass = .literal kind)
    (other : action ≠ .read) : action.lookUp frames operand = operand.literal := by
  have content : frames.content operand = operand.literal := by
    rw [Frames.content, if_neg (by simp [isLiteral])]
  have value : frames.value operand = operand.literal := by
    rw [Frames.value, content]
    cases found : operand.literal with
    | error failure => rfl
    | ok value =>
      obtain ⟨kind, _, decoded⟩ := literal_eq_ok found
      have initialized := (decode_eq_some decoded).2.1
      cases value with
      | uninitialized => exact absurd rfl initialized
      | int _ | bool _ | string _ | float _ | nil => rfl
  cases action with
  | read => exact absurd rfl other
  | typeOf => exact content
  | _ => exact value

theorem predicts_lookUp (symbol : action ≠ .read → operand.operandClass.isSymbol = true)
    (type : action = .read → operand.operandClass = .type) :
    Predicts [resolutionVerdict action frames operand] (action.lookUp frames operand) := by
  by_cases reads : action = .read
  · subst reads
    refine (Predicts.of_ok _).skip ?_
    rw [resolutionVerdict, type rfl]
  · cases given : operand.operandClass with
    | literal kind =>
      rw [lookUp_of_literal given reads]
      exact predicts_literal given
    | label | type =>
      have impossible := symbol reads
      rw [given] at impossible
      cases impossible
    | var =>
      simp only [resolutionVerdict, given]
      cases action with
      | read => exact absurd rfl reads
      | typeOf => exact predicts_content given
      | _ => exact predicts_value given nofun

end Arguments

end IPPcode24
