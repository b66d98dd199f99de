import IPPcode24.Proofs.Targets
import IPPcode24.Proofs.Variables
import IPPcode24.Proofs.Writable

/-!
# Renaming

The names of variables and labels can be exchanged for others, as long as different names stay
different. A variable keeps its tag, so a frame can be moved and its variables be found under
another tag. No value and no class of an operand depends on a name. So a renamed instruction
plans the renamed effect, or fails for the same reason, in which names occur renamed.
-/

namespace IPPcode24

/-- Other names for variables, which are not empty, and other texts for labels. -/
structure Renaming where
  name : {text : Text // text ≠ []} → {text : Text // text ≠ []}
  label : Text → Text
  name_injective : Function.Injective name
  label_injective : Function.Injective label

/-- The other name of a variable; there is no variable without a name. -/
def Renaming.text (names : Renaming) (text : Text) : Text :=
  if named : text ≠ [] then names.name ⟨text, named⟩ else []

/-! ## Renamed programs and machines -/

section Definitions

variable (names : Renaming)

def Variable.renamed (ref : Variable) : Variable := { ref with name := names.text ref.name }

/-- A variable operand that names no variable is left as it is. -/
def Operand.renamed (operand : Operand) : Operand :=
  match operand.operandClass with
  | .var =>
    match Variable.ofSource? operand.text with
    | some ref => { operand with text := (ref.renamed names).source }
    | none => operand
  | .label => { operand with text := names.label operand.text }
  | _ => operand

def Instruction.renamed (instruction : Instruction) : Instruction :=
  { instruction with operands := instruction.operands.map (Operand.renamed names) }

def LabelTable.renamed (labels : LabelTable) : LabelTable :=
  labels.map fun (name, place) => (names.label name, place)

def Program.renamed (program : Program) : Program :=
  ⟨program.instructions.map (Instruction.renamed names),
    LabelTable.renamed names program.labels⟩

def Frame.renamed (frame : Frame) : Frame :=
  frame.map fun (name, value) => (names.text name, value)

def Frames.renamed (frames : Frames) : Frames where
  globals := Frame.renamed names frames.globals
  temporary := frames.temporary.map (Frame.renamed names)
  locals := frames.locals.map (Frame.renamed names)

def FrameError.renamed : FrameError → FrameError
  | redefined ref => .redefined (ref.renamed names)
  | undefined ref => .undefined (ref.renamed names)
  | missing tag => .missing tag

def Fault.renamed : Fault → Fault
  | variableRedefined ref => .variableRedefined (ref.renamed names)
  | variableUndefined ref => .variableUndefined (ref.renamed names)
  | labelUndefined name => .labelUndefined (names.label name)
  | fault => fault

def Failure.renamed : Failure Fault → Failure Fault
  | error fault => .error (fault.renamed names)
  | crash reason => .crash reason

def Effect.renamed : Effect → Effect
  | define ref => .define (ref.renamed names)
  | assign ref value => .assign (ref.renamed names) value
  | read target kind => .read (target.renamed names) kind
  | print operand => .print (operand.renamed names)
  | effect => effect

/-- An attempt whose answer is carried over, or the renamed failure. -/
def Renaming.attempt {α β : Type} (carry : α → β) : Attempt α → Attempt β
  | .ok a => .ok (carry a)
  | .error failure => .error (failure.renamed names)

/-- An operation on frames whose result is carried over, or the renamed error. -/
def Renaming.operation {α β : Type} (carry : α → β) :
    Except FrameError α → Except FrameError β
  | .ok a => .ok (carry a)
  | .error error => .error (error.renamed names)

end Definitions

variable {names : Renaming}

/-! ## Names -/

section Names

theorem Renaming.text_of_ne {name : Text} (named : name ≠ []) :
    names.text name = names.name ⟨name, named⟩ := dif_pos named

theorem Renaming.text_eq_nil_iff {name : Text} : names.text name = [] ↔ name = [] := by
  by_cases empty : name = []
  · simp [text, empty]
  · rw [text_of_ne empty]
    exact iff_of_false (names.name _).property empty

/-- Different names stay different. -/
theorem Renaming.text_inj {name other : Text} :
    names.text name = names.text other ↔ name = other := by
  refine ⟨fun same => ?_, congrArg names.text⟩
  by_cases empty : name = []
  · subst empty
    exact (text_eq_nil_iff.mp (same.symm.trans (text_eq_nil_iff.mpr rfl))).symm
  · have emptyToo : other ≠ [] := by
      rintro rfl
      exact empty (text_eq_nil_iff.mp (same.trans (text_eq_nil_iff.mpr rfl)))
    rw [text_of_ne empty, text_of_ne emptyToo] at same
    exact congrArg Subtype.val (names.name_injective (Subtype.ext same))

theorem Variable.ofSource?_source {ref : Variable} (named : ref.name ≠ []) :
    ofSource? ref.source = some ref := by
  obtain ⟨tag, name⟩ := ref
  have cut := Text.cut_append tag.isWord_name.2 name
  simp only [ofSource?, source, cut, Option.bind_eq_bind, Option.bind_some,
    FrameTag.ofName?_eq_some_iff.mpr rfl, if_neg named]
  rfl

theorem Variable.name_ne_nil {text : Text} {ref : Variable} (read : ofSource? text = some ref) :
    ref.name ≠ [] := by
  obtain ⟨⟨tag, name⟩, _, read⟩ := Option.bind_eq_some_iff.mp read
  obtain ⟨tag, _, read⟩ := Option.bind_eq_some_iff.mp read
  split at read
  · cases read
  · cases read
    assumption

theorem Operand.operandClass_renamed (operand : Operand) :
    (operand.renamed names).operandClass = operand.operandClass := by
  rw [renamed]
  split
  · split <;> rfl
  · rfl
  · rfl

/-- The variable that a renamed operand names. -/
theorem Operand.reference_renamed {operand : Operand} (isVar : operand.operandClass = .var) :
    (operand.renamed names).reference =
      names.attempt (Variable.renamed names) operand.reference := by
  cases read : Variable.ofSource? operand.text with
  | none =>
    have same : operand.renamed names = operand := by simp only [renamed, isVar, read]
    rw [same, reference, read]
    rfl
  | some ref =>
    have source : (operand.renamed names).text = (ref.renamed names).source := by
      simp only [renamed, isVar, read]
    have named : (ref.renamed names).name ≠ [] := fun empty =>
      Variable.name_ne_nil read (Renaming.text_eq_nil_iff.mp empty)
    rw [reference, reference, source, Variable.ofSource?_source named, read]
    rfl

theorem Operand.text_renamed_of_label {operand : Operand}
    (isLabel : operand.operandClass = .label) :
    (operand.renamed names).text = names.label operand.text := by
  simp only [renamed, isLabel]

theorem Operand.renamed_of_other {operand : Operand} (notVar : operand.operandClass ≠ .var)
    (notLabel : operand.operandClass ≠ .label) : operand.renamed names = operand := by
  rw [renamed]
  split
  · exact absurd ‹_› notVar
  · exact absurd ‹_› notLabel
  · rfl

end Names

/-! ## Tables -/

section Tables

/-- A look-up under renamed keys finds what the look-up under the keys finds. -/
theorem lookup_map_key {α : Type} {rename : Text → Text}
    (injective : ∀ {name other}, rename name = rename other ↔ name = other)
    (table : List (Text × α)) (name : Text) :
    (table.map fun (key, content) => (rename key, content)).lookup (rename name) =
      table.lookup name := by
  induction table with
  | nil => rfl
  | cons entry rest ih =>
    obtain ⟨key, content⟩ := entry
    have same : (rename name == rename key) = (name == key) := by
      rw [Bool.eq_iff_iff, beq_iff_eq, beq_iff_eq, injective]
    rw [List.map_cons, List.lookup_cons, List.lookup_cons, same, ih]

theorem LabelTable.resolve?_renamed (labels : LabelTable) (name : Text) :
    resolve? (LabelTable.renamed names labels) (names.label name) = labels.resolve? name :=
  lookup_map_key names.label_injective.eq_iff labels name

theorem LabelTable.target_renamed {operand : Operand} (labels : LabelTable)
    (isLabel : operand.operandClass = .label) :
    target (LabelTable.renamed names labels) (operand.renamed names) =
      names.attempt id (labels.target operand) := by
  rw [target, target, Operand.text_renamed_of_label isLabel, resolve?_renamed]
  cases labels.resolve? operand.text <;> rfl

theorem Frame.get?_renamed (frame : Frame) (name : Text) :
    get? (Frame.renamed names frame) (names.text name) = frame.get? name :=
  lookup_map_key Renaming.text_inj frame name

theorem Frame.declare_renamed (frame : Frame) (name : Text) :
    declare (Frame.renamed names frame) (names.text name) =
      Frame.renamed names (frame.declare name) := by
  simp [declare, Frame.renamed]

theorem Frame.assign_renamed (frame : Frame) (name : Text) (value : Value) :
    assign (names.text name) value (Frame.renamed names frame) =
      Frame.renamed names (frame.assign name value) := by
  induction frame with
  | nil => rfl
  | cons entry rest ih =>
    obtain ⟨key, content⟩ := entry
    simp only [Frame.renamed, List.map_cons, assign, Renaming.text_inj] at ih ⊢
    split
    · rfl
    · rw [ih]
      rfl

end Tables

/-! ## Frames -/

namespace Frames

theorem frame?_renamed (frames : Frames) (tag : FrameTag) :
    (frames.renamed names).frame? tag = (frames.frame? tag).map (Frame.renamed names) := by
  cases tag with
  | gf | tf => rfl
  | lf => exact List.head?_map

theorem replace_renamed (frames : Frames) (frame : Frame) (tag : FrameTag) :
    (frames.renamed names).replace (Frame.renamed names frame) tag =
      (frames.replace frame tag).renamed names := by
  cases tag with
  | gf | tf => rfl
  | lf =>
    obtain ⟨globals, temporary, locals⟩ := frames
    cases locals <;> rfl

theorem define_renamed (frames : Frames) (ref : Variable) :
    (frames.renamed names).define (ref.renamed names) =
      names.operation (Frames.renamed names) (frames.define ref) := by
  simp only [define, Variable.renamed, frame?_renamed]
  cases frames.frame? ref.tag with
  | none => rfl
  | some frame =>
    simp only [Option.map_some, Frame.get?_renamed, Frame.declare_renamed, replace_renamed]
    split <;> rfl

theorem set_renamed (frames : Frames) (ref : Variable) (value : Value) :
    (frames.renamed names).set (ref.renamed names) value =
      names.operation (Frames.renamed names) (frames.set ref value) := by
  simp only [set, Variable.renamed, frame?_renamed]
  cases frames.frame? ref.tag with
  | none => rfl
  | some frame =>
    simp only [Option.map_some, Frame.get?_renamed, Frame.assign_renamed, replace_renamed]
    split <;> rfl

theorem get_renamed (frames : Frames) (ref : Variable) :
    (frames.renamed names).get (ref.renamed names) = names.operation id (frames.get ref) := by
  simp only [get, Variable.renamed, frame?_renamed]
  cases frames.frame? ref.tag with
  | none => rfl
  | some frame =>
    simp only [Option.map_some, Frame.get?_renamed]
    cases frame.get? ref.name <;> rfl

theorem push_renamed (frames : Frames) :
    (frames.renamed names).push = names.operation (Frames.renamed names) frames.push := by
  obtain ⟨globals, temporary, locals⟩ := frames
  cases temporary <;> rfl

theorem pop_renamed (frames : Frames) :
    (frames.renamed names).pop = names.operation (Frames.renamed names) frames.pop := by
  obtain ⟨globals, temporary, locals⟩ := frames
  cases locals <;> rfl

end Frames

/-! ## Attempts -/

section Attempts

variable {α β γ δ : Type}

theorem attempt_bind {carry : α → β} {carryToo : γ → δ} {first : Attempt α}
    {next : α → Attempt γ} {nextToo : β → Attempt δ}
    (follows : ∀ a, first = .ok a → nextToo (carry a) = names.attempt carryToo (next a)) :
    names.attempt carry first >>= nextToo = names.attempt carryToo (first >>= next) := by
  cases first with
  | ok a => exact follows a rfl
  | error failure => rfl

/-- An attempt that fails for no reason in which a name occurs. -/
theorem attempt_bind_of_kept {carryToo : γ → δ} {first : Attempt α} {next : α → Attempt γ}
    {nextToo : α → Attempt δ} (kept : names.attempt id first = first)
    (follows : ∀ a, first = .ok a → nextToo a = names.attempt carryToo (next a)) :
    first >>= nextToo = names.attempt carryToo (first >>= next) := by
  cases first with
  | ok a => exact follows a rfl
  | error failure => exact congrArg Except.error (Except.error.inj kept).symm

theorem attempt_operation (carry : α → β) (result : Except FrameError α) :
    orError ((names.operation carry result).mapError FrameError.fault) =
      names.attempt carry (orError (result.mapError FrameError.fault)) := by
  cases result with
  | ok a => rfl
  | error error => cases error <;> rfl

/-- Attempts for the renamed elements of a list give what the attempts for the elements give. -/
theorem mapM_renamed {attempt attemptToo : Operand → Attempt Value} {operands : List Operand}
    (each : ∀ operand ∈ operands,
      attemptToo (operand.renamed names) = names.attempt id (attempt operand)) :
    (operands.map (Operand.renamed names)).mapM attemptToo =
      names.attempt id (operands.mapM attempt) := by
  induction operands with
  | nil => rfl
  | cons operand rest ih =>
    have others := ih fun other member => each other (List.mem_cons_of_mem operand member)
    rw [List.map_cons, List.mapM_cons, List.mapM_cons, each operand List.mem_cons_self, others]
    exact attempt_bind fun value _ => attempt_bind fun values _ => rfl

end Attempts

/-! ## Symbols -/

section Symbols

/-- A literal has no name, and what is no literal is refused for its class. -/
theorem literal_renamed (operand : Operand) :
    (operand.renamed names).literal = names.attempt id operand.literal := by
  cases isLiteral : operand.operandClass with
  | literal kind =>
    have same : operand.renamed names = operand :=
      Operand.renamed_of_other (by rw [isLiteral]; nofun) (by rw [isLiteral]; nofun)
    simp only [same, Operand.literal, isLiteral]
    cases Literal.decode kind operand.text with
    | error crash => rfl
    | ok value? => cases value? <;> rfl
  | var | label | type =>
    rw [Operand.literal, Operand.literal, Operand.operandClass_renamed, isLiteral]
    rfl

theorem content_renamed (frames : Frames) (operand : Operand) :
    (frames.renamed names).content (operand.renamed names) =
      names.attempt id (frames.content operand) := by
  rw [Frames.content, Frames.content, Operand.operandClass_renamed]
  split
  · rename_i isVar
    rw [Operand.reference_renamed isVar]
    refine attempt_bind fun ref _ => ?_
    rw [Frames.get_renamed, attempt_operation]
  · exact literal_renamed operand

theorem value_renamed (frames : Frames) (operand : Operand) :
    (frames.renamed names).value (operand.renamed names) =
      names.attempt id (frames.value operand) := by
  rw [Frames.value, content_renamed]
  refine attempt_bind fun value _ => ?_
  cases value <;> rfl

end Symbols

/-! ## Stages -/

section Checks

variable {operands : List Operand}

theorem checkClasses_renamed (position : Nat) (slots : List Slot) (operands : List Operand) :
    checkClasses position slots (operands.map (Operand.renamed names)) =
      checkClasses position slots operands := by
  induction slots generalizing position operands with
  | nil => rfl
  | cons slot slots ih =>
    cases operands with
    | nil => rfl
    | cons operand rest =>
      simp only [List.map_cons, checkClasses, Operand.operandClass_renamed, ih]

/-- The checks look at the number of the operands and at their classes. -/
theorem checkOperands_renamed (opcode : Opcode) (operands : List Operand) :
    checkOperands opcode (operands.map (Operand.renamed names)) =
      checkOperands opcode operands := by
  rw [checkOperands, checkOperands, List.length_map, checkClasses_renamed]

theorem attempt_checkOperands (opcode : Opcode) (operands : List Operand) :
    names.attempt id (orError (checkOperands opcode operands)) =
      orError (checkOperands opcode operands) := by
  cases refused : checkOperands opcode operands with
  | ok _ => rfl
  | error fault =>
    rw [checkOperands] at refused
    split at refused
    · cases refused
      rfl
    · obtain ⟨_, _, _, _, _, _, rfl⟩ := checkClasses_eq_error refused
      rfl

end Checks

namespace Action

variable {action : Action} {order : SymbolOrder} {operands : List Operand}

theorem requireLabel_renamed (labels : LabelTable)
    (labelled : action.namesLabel = true → ∀ operand, operands[0]? = some operand →
      operand.operandClass = .label) :
    action.requireLabel (LabelTable.renamed names labels) (operands.map (Operand.renamed names)) =
      names.attempt id (action.requireLabel labels operands) := by
  cases operands with
  | nil => rfl
  | cons operand rest =>
    rw [List.map_cons, requireLabel, requireLabel]
    split
    · rename_i isLabel
      rw [LabelTable.target_renamed labels (labelled isLabel operand rfl)]
      exact attempt_bind fun place _ => rfl
    · rfl

theorem requireSymbol_renamed (action : Action) (order : SymbolOrder) (operands : List Operand) :
    action.requireSymbol order (operands.map (Operand.renamed names)) =
      names.attempt id (action.requireSymbol order operands) := by
  cases action with
  | negation =>
    match operands with
    | [] | [_] | [_, _] => rfl
    | _ :: _ :: third :: _ =>
      cases order with
      | written => rfl
      | reversed =>
        simp only [List.map_cons, requireSymbol, Operand.operandClass_renamed, checkClass]
        split <;> rfl
  | _ => rfl

theorem arguments_renamed (action : Action) (order : SymbolOrder) (operands : List Operand) :
    action.arguments order (operands.map (Operand.renamed names)) =
      (action.arguments order operands).map (Operand.renamed names) := by
  simp only [arguments, List.length_map, List.getElem?_map, List.map_filterMap]

theorem lookUp_renamed {operand : Operand} (frames : Frames)
    (typed : action = .read → operand.operandClass = .type) :
    action.lookUp (frames.renamed names) (operand.renamed names) =
      names.attempt id (action.lookUp frames operand) := by
  unfold lookUp
  split
  · have isType := typed rfl
    rw [Operand.renamed_of_other (by rw [isType]; nofun) (by rw [isType]; nofun)]
    rfl
  · exact content_renamed frames operand
  · exact value_renamed frames operand

/-- An action does not know names, so it complains of none. -/
theorem attempt_outcome (action : Action) (values : List Value) :
    names.attempt id (action.outcome values) = action.outcome values := by
  cases failed : action.outcome values with
  | ok outcome => rfl
  | error failure =>
    obtain ⟨fault, rfl, complaint⟩ := action.outcome_failsWith values failure failed
    cases complaint <;> rfl

end Action

/-- An effect that an action has by itself holds no name. -/
theorem Effect.Alone.renamed {action : Action} {effect : Effect} (alone : effect.Alone action) :
    effect.renamed names = effect := by
  cases effect with
  | define _ => cases alone
  | assign _ _ => cases alone
  | read _ _ => cases alone
  | print _ => cases alone
  | _ => rfl

section Plans

variable {labels : LabelTable} {operands : List Operand}

theorem Action.signature_of_namesLabel {action : Action} (isLabel : action.namesLabel = true) :
    ∃ slots, action.signature = .label :: slots := by
  cases action with
  | call | jump | jumpIf _ => exact ⟨_, rfl⟩
  | _ => cases isLabel

theorem Outcome.Of.namesLabel {action : Action} {outcome : Outcome} (own : outcome.Of action)
    (goes : outcome = .jump ∨ outcome = .call) : action.namesLabel = true := by
  rcases goes with rfl | rfl
  · rcases own with rfl | ⟨equal, rfl⟩ <;> rfl
  · cases own
    rfl

theorem effect_renamed {action : Action} {outcome : Outcome} (own : outcome.Of action)
    (fill : Fill action.signature operands) :
    outcome.effect (LabelTable.renamed names labels) (operands.map (Operand.renamed names)) =
      names.attempt (Effect.renamed names) (outcome.effect labels operands) := by
  cases operands with
  | nil =>
    cases outcome with
    | alone effect => exact congrArg Except.ok (Effect.Alone.renamed own).symm
    | _ => rfl
  | cons target rest =>
    have isVar {slots : List Slot} (first : action.signature = .var :: slots) :
        target.operandClass = .var := by
      rw [first] at fill
      exact of_decide_eq_true (fill_cons.mp fill).1
    have isLabel (goes : outcome = .jump ∨ outcome = .call) : target.operandClass = .label := by
      obtain ⟨slots, first⟩ := Action.signature_of_namesLabel (own.namesLabel goes)
      rw [first] at fill
      exact of_decide_eq_true (fill_cons.mp fill).1
    simp only [Outcome.effect, assignFirst, List.map_cons, operandAt_zero, Chain.bind_ok]
    cases outcome with
    | alone effect => exact congrArg Except.ok (Effect.Alone.renamed own).symm
    | read _ | print => rfl
    | define =>
      cases own
      rw [Operand.reference_renamed (isVar rfl)]
      exact attempt_bind fun ref _ => rfl
    | assign value =>
      obtain ⟨slots, first⟩ := own
      rw [Operand.reference_renamed (isVar first)]
      exact attempt_bind fun ref _ => rfl
    | jump =>
      rw [LabelTable.target_renamed labels (isLabel (Or.inl rfl))]
      exact attempt_bind fun place _ => rfl
    | call =>
      rw [LabelTable.target_renamed labels (isLabel (Or.inr rfl))]
      exact attempt_bind fun place _ => rfl

/-- A renamed instruction plans the renamed effect, or fails for the same reason. -/
theorem plan_renamed (opcode : Opcode) (labels : LabelTable) (frames : Frames)
    (operands : List Operand) :
    opcode.plan (LabelTable.renamed names labels) (frames.renamed names)
        (operands.map (Operand.renamed names)) =
      names.attempt (Effect.renamed names) (opcode.plan labels frames operands) := by
  rw [Opcode.plan, Opcode.plan, checkOperands_renamed]
  refine attempt_bind_of_kept (attempt_checkOperands opcode operands) fun _ checked => ?_
  obtain ⟨enough, fill⟩ := checkOperands_eq_ok.mp (orError_eq_ok.mp checked)
  rw [opcode.signature_eq] at enough fill
  have enoughToo : opcode.action.signature.length ≤
      (operands.map (Operand.renamed names)).length := by rwa [List.length_map]
  have labelled (isLabel : opcode.action.namesLabel = true) (operand : Operand)
      (first : operands[0]? = some operand) : operand.operandClass = .label := by
    obtain ⟨slots, signature⟩ := Action.signature_of_namesLabel isLabel
    rw [signature] at fill
    exact of_decide_eq_true (fill 0 .label operand rfl first)
  have lookUps : ∀ operand ∈ opcode.action.arguments opcode.symbolOrder operands,
      opcode.action.lookUp (frames.renamed names) (operand.renamed names) =
        names.attempt id (opcode.action.lookUp frames operand) := by
    intro operand argument
    refine Action.lookUp_renamed frames fun reads => ?_
    rw [reads] at fill argument
    exact Action.isType_of_mem_arguments fill argument
  rw [Action.plan_eq_staged enough, Action.plan_eq_staged enoughToo, Action.staged,
    Action.staged, Action.requireLabel_renamed labels labelled, Action.requireSymbol_renamed,
    Action.arguments_renamed, mapM_renamed lookUps]
  -- up to the values the stages differ by the names in their failures, and the values do not
  refine attempt_bind fun _ _ => attempt_bind fun _ _ => attempt_bind fun values _ => ?_
  refine attempt_bind_of_kept (opcode.action.attempt_outcome values) fun outcome given => ?_
  exact effect_renamed (opcode.action.outcome_gives values outcome given) fill

end Plans

end IPPcode24
