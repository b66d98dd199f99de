import IPPcode24.Proofs.Building
import IPPcode24.Proofs.Mnemonics
import IPPcode24.Proofs.Reachable

/-!
# Surplus operands

An instruction may have more operands than its opcode has slots. Nothing looks at them, except
that NOTS takes a third operand in the place of its second one. Nor does anything look at the
letter case of a mnemonic, but the report that it is unknown. So records can be abridged: what
they build has the same labels and runs in the same way.
-/

namespace IPPcode24

/-- How many operands an instruction can look at. -/
def Opcode.reach (opcode : Opcode) : Nat :=
  if opcode = .nots then 3 else opcode.signature.length

/-- The other record has the same key and the same mnemonic in some letter case. Of the
operands it has the first ones, and at least all those within reach. An unknown mnemonic reaches
for none. -/
structure Instruction.AbridgedTo (record other : Instruction) : Prop where
  order : other.order = record.order
  mnemonic : Text.sameLetters other.mnemonic record.mnemonic = true
  operands : ∃ count, other.operands = record.operands.take count ∧
    ∀ opcode, record.opcode? = some opcode → opcode.reach ≤ count

/-- The record with the operands within reach alone, and with another spelling of its
mnemonic. -/
def Instruction.abridged (record : Instruction) (mnemonic : Text) : Instruction where
  order := record.order
  mnemonic := mnemonic
  operands :=
    match record.opcode? with
    | some opcode => record.operands.take opcode.reach
    | none => record.operands

theorem Instruction.abridgedTo_abridged {record : Instruction} {mnemonic : Text}
    (letters : Text.sameLetters mnemonic record.mnemonic = true) :
    record.AbridgedTo (record.abridged mnemonic) := by
  refine ⟨rfl, letters, ?_⟩
  cases known : record.opcode? with
  | none => exact ⟨record.operands.length, by simp [abridged, known], nofun⟩
  | some opcode =>
    refine ⟨opcode.reach, by simp [abridged, known], ?_⟩
    rintro _ ⟨⟩
    exact Nat.le_refl _

/-! ## Operands out of reach -/

section OutOfReach

variable {operands : List Operand} {count position : Nat} {frames : Frames}

theorem operandAt_take (within : position < count) :
    operandAt (operands.take count) position = operandAt operands position := by
  rw [operandAt, operandAt, List.getElem?_take_of_lt within]

theorem valueAt_take (within : position < count) :
    valueAt frames (operands.take count) position = valueAt frames operands position := by
  rw [valueAt, valueAt, operandAt_take within]

theorem assignFirst_take (within : 0 < count) (value : Value) :
    assignFirst (operands.take count) value = assignFirst operands value := by
  rw [assignFirst, assignFirst, operandAt_take within]

theorem valuesOfPair_take {order : SymbolOrder} (within : 2 < count) :
    valuesOfPair frames order (operands.take count) = valuesOfPair frames order operands := by
  rw [valuesOfPair, valuesOfPair, operandAt_take (Nat.lt_of_succ_lt within), operandAt_take within]

theorem negated_take {order : SymbolOrder} (within : 1 < count)
    (third : order = .reversed → 2 < count) :
    negated order (operands.take count) = negated order operands := by
  cases order with
  | written => exact operandAt_take within
  | reversed => simp only [negated, List.getElem?_take_of_lt (third rfl), operandAt_take within]

theorem checkClasses_take {slots : List Slot} (enough : slots.length ≤ count) :
    checkClasses position slots (operands.take count) =
      checkClasses position slots operands := by
  induction slots generalizing position operands count with
  | nil => simp only [checkClasses]
  | cons slot slots ih =>
    obtain ⟨count, rfl⟩ := Nat.exists_eq_add_of_le' (Nat.le_of_add_left_le enough)
    cases operands with
    | nil => rfl
    | cons operand operands =>
      rw [List.take_succ_cons, checkClasses, checkClasses, ih (Nat.le_of_succ_le_succ enough)]

theorem checkOperands_take {opcode : Opcode} (enough : opcode.signature.length ≤ count) :
    checkOperands opcode (operands.take count) = checkOperands opcode operands := by
  by_cases short : operands.length ≤ count
  · rw [List.take_of_length_le short]
  · have counted : (operands.take count).length = count := by
      rw [List.length_take]
      omega
    rw [checkOperands, checkOperands, counted, if_neg (by omega), if_neg (by omega),
      checkClasses_take enough]

/-- An action looks at no operand behind its slots, apart from a negation in reversed order. -/
theorem Action.plan_take {action : Action} {labels : LabelTable} {order : SymbolOrder}
    (enough : action.signature.length ≤ count)
    (third : action = .negation → order = .reversed → 2 < count) :
    action.plan labels frames order (operands.take count) =
      action.plan labels frames order operands := by
  -- one case for each number of slots
  cases action with
  | createFrame | pushFrame | popFrame | ret | inspect | pass => rfl
  | define | call | jump | write | exit | print =>
    have first : 0 < count := enough
    simp only [plan, operandAt_take first, valueAt_take first]
  | move | intToChar | length | typeOf | intToFloat | floatToInt | read =>
    have second : 1 < count := enough
    have first : 0 < count := Nat.lt_of_succ_lt second
    simp only [plan, operandAt_take first, operandAt_take second, valueAt_take second,
      assignFirst_take first]
  | negation =>
    have second : 1 < count := enough
    simp only [plan, negated_take second (third rfl), assignFirst_take (Nat.lt_of_succ_lt second)]
  | arithmetic _ | relation _ | connective _ | charToInt | concat | getChar | setChar | jumpIf _ =>
    have last : 2 < count := enough
    have first : 0 < count := Nat.lt_of_succ_lt (Nat.lt_of_succ_lt last)
    simp only [plan, operandAt_take first, valueAt_take first, valuesOfPair_take last,
      assignFirst_take first]

theorem Opcode.length_signature_le_reach (opcode : Opcode) :
    opcode.signature.length ≤ opcode.reach := by
  rw [reach]
  split
  · rename_i same
    rw [same]
    decide
  · exact Nat.le_refl _

/-- NOTS is the only negation in reversed order. -/
theorem Opcode.eq_nots {opcode : Opcode} (negates : opcode.action = .negation)
    (reversed : opcode.symbolOrder = .reversed) : opcode = .nots := by
  cases opcode with
  | nots => rfl
  | not => cases reversed
  | _ => cases negates

/-- No plan depends on operands that are out of reach. -/
theorem Opcode.plan_take {opcode : Opcode} {labels : LabelTable} (enough : opcode.reach ≤ count) :
    opcode.plan labels frames (operands.take count) = opcode.plan labels frames operands := by
  have slots : opcode.signature.length ≤ count :=
    Nat.le_trans opcode.length_signature_le_reach enough
  have third (negates : opcode.action = .negation) (reversed : opcode.symbolOrder = .reversed) :
      2 < count := by
    rw [eq_nots negates reversed] at enough
    exact enough
  rw [plan, plan, checkOperands_take slots, Action.plan_take (opcode.signature_eq ▸ slots) third]

end OutOfReach

/-! ## Abridged records -/

namespace Instruction.AbridgedTo

variable {record other : Instruction}

theorem opcode?_eq (abridged : record.AbridgedTo other) : other.opcode? = record.opcode? := by
  have same := sameLetters_iff.mp abridged.mnemonic
  simp only [opcode?, Opcode.ofMnemonic?, Text.sameLetters, same]

theorem isLabel_eq (abridged : record.AbridgedTo other) : other.isLabel = record.isLabel := by
  rw [isLabel, isLabel, Text.sameLetters, Text.sameLetters, sameLetters_iff.mp abridged.mnemonic]

/-- A record that declares a label has a single operand, and that is within reach. -/
theorem operands_eq_of_declares {name : Text} (abridged : record.AbridgedTo other)
    (declares : record.Declares name) : other.operands = record.operands := by
  obtain ⟨count, operands, enough⟩ := abridged.operands
  have reached : 1 ≤ count := enough .label (isLabel_iff.mp declares.isLabel)
  rw [operands]
  refine List.take_of_length_le ?_
  rw [declares.operands]
  exact reached

/-- Where labels have the form of one, abridging them changes nothing that a scan looks at. -/
theorem sameLabel (abridged : record.AbridgedTo other)
    (formed : record.isLabel = true → ∃ name, record.Declares name) :
    other.isLabel = record.isLabel ∧ (record.isLabel = true →
      LabelTable.declaredName? other = LabelTable.declaredName? record) := by
  refine ⟨abridged.isLabel_eq, fun isLabel => ?_⟩
  obtain ⟨name, declares⟩ := formed isLabel
  rw [LabelTable.declaredName?, LabelTable.declaredName?,
    abridged.operands_eq_of_declares declares]

theorem plan_eq {opcode : Opcode} (abridged : record.AbridgedTo other)
    (known : record.opcode? = some opcode) (labels : LabelTable) (frames : Frames) :
    opcode.plan labels frames other.operands = opcode.plan labels frames record.operands := by
  obtain ⟨count, operands, enough⟩ := abridged.operands
  rw [operands]
  exact Opcode.plan_take (enough opcode known)

end Instruction.AbridgedTo

theorem exists_abridged {records others : List Instruction} {program : Program}
    (built : Program.build records = .ok program)
    (abridged : List.Forall₂ Instruction.AbridgedTo records others) :
    ∃ other, Program.build others = .ok other ∧ other.labels = program.labels ∧
      List.Forall₂ Instruction.AbridgedTo program.instructions other.instructions := by
  have proper := (exists_build_iff.mp ⟨program, built⟩).2
  -- that labels have the form of one goes along with the relation, since the scan depends on it
  let formed (record : Instruction) : Prop := record.isLabel = true → ∃ name, record.Declares name
  have each : List.Forall₂ (fun record other => formed record ∧ record.AbridgedTo other)
      records others :=
    (List.forall₂_and_left records others).mpr ⟨proper.formed, abridged⟩
  obtain ⟨other, builtToo, labels, arranged⟩ :=
    exists_build_of_forall₂ (fun both => both.2.order) (fun both => both.2.sameLabel both.1)
      built each
  exact ⟨other, builtToo, labels, arranged.imp fun _ _ both => both.2⟩

/-! ## Runs -/

/-- The end as another program reports it: the text of an unknown opcode may have another letter
case. -/
inductive Ending.Echoes : Ending → Ending → Prop where
  | same {ending : Ending} : Echoes ending ending
  | unknown {place : Nat} {text other : Text} (letters : Text.sameLetters other text = true) :
      Echoes (.failed ⟨place, .unknownOpcode text⟩) (.failed ⟨place, .unknownOpcode other⟩)

/-- A step with the same machine after it and the same events. -/
structure Stepped.Echoes (stepped echo : Stepped) : Prop where
  machine : echo.machine = stepped.machine
  events : echo.events = stepped.events
  ending : Option.Rel Ending.Echoes stepped.ending echo.ending

/-- A run with the same machine and the same events so far. -/
structure Run.Echoes (run echo : Run) : Prop where
  machine : echo.machine = run.machine
  log : echo.log = run.log
  ending : Option.Rel Ending.Echoes run.ending echo.ending

/-- An execution with the same machine after it, and the same log but for the way in which the
closing event reports the end. -/
structure Execution.Echoes (execution echo : Execution) : Prop where
  machine : echo.machine = execution.machine
  ending : execution.ending.Echoes echo.ending
  log : ∃ told, execution.log = told ++ execution.machine.farewell execution.ending ∧
    echo.log = told ++ echo.machine.farewell echo.ending

section Echoes

variable {program other : Program}

theorem Ending.Echoes.refl_option : ∀ ending? : Option Ending,
    Option.Rel Ending.Echoes ending? ending?
  | none => .none
  | some _ => .some .same

theorem Stepped.Echoes.of_eq {stepped echo : Stepped} (same : echo = stepped) :
    stepped.Echoes echo := by
  rw [same]
  exact ⟨rfl, rfl, Ending.Echoes.refl_option _⟩

theorem Ending.Echoes.eq {ending echo : Ending} (echoes : ending.Echoes echo)
    (known : ∀ place text, ending ≠ .failed ⟨place, .unknownOpcode text⟩) : echo = ending := by
  cases echoes with
  | same => rfl
  | unknown _ => exact absurd rfl (known _ _)

theorem Execution.Echoes.eq {execution echo : Execution} (echoes : execution.Echoes echo)
    (known : ∀ place text, execution.ending ≠ .failed ⟨place, .unknownOpcode text⟩) :
    echo = execution := by
  obtain ⟨machine, ending, told, log, logToo⟩ := echoes
  obtain ⟨last, reached, events⟩ := execution
  obtain ⟨lastToo, reachedToo, eventsToo⟩ := echo
  have same := ending.eq known
  simp only at machine same log logToo
  rw [machine, same] at logToo
  rw [machine, same, log, logToo]

theorem Ending.Echoes.flushed {reached echo : Ending} (echoes : reached.Echoes echo)
    (machine : Machine) : (machine.flushed reached).Echoes (machine.flushed echo) := by
  cases echoes with
  | same => exact .same
  | unknown letters => exact .unknown letters

theorem Ending.Echoes.closed {reached echo : Ending} (echoes : reached.Echoes echo)
    (machine : Machine) : machine.closed echo = machine.closed reached := by
  cases echoes <;> rfl

/-- Of abridged instructions a step makes the same. -/
theorem step_echoes
    (each : List.Forall₂ Instruction.AbridgedTo program.instructions other.instructions)
    (labels : other.labels = program.labels) (machine : Machine) :
    (machine.step program).Echoes (machine.step other) := by
  have fetched := Program.forall₂_getElem? each machine.pc
  rw [Machine.step, Machine.step]
  generalize program.instructions[machine.pc]? = record? at fetched
  generalize other.instructions[machine.pc]? = other? at fetched
  cases fetched with
  | none => exact .of_eq rfl
  | @some record short abridged =>
    simp only [abridged.opcode?_eq]
    cases known : record.opcode? with
    | none => exact ⟨rfl, rfl, .some (.unknown abridged.mnemonic)⟩
    | some opcode =>
      simp only [Machine.execute, labels, abridged.plan_eq known]
      exact .of_eq rfl

theorem Run.Echoes.advance {run echo : Run} (echoes : run.Echoes echo)
    (steps : ∀ machine : Machine, (machine.step program).Echoes (machine.step other)) :
    (run.advance program).Echoes (echo.advance other) := by
  obtain ⟨last, events, ending⟩ := run
  obtain ⟨lastToo, eventsToo, endingToo⟩ := echo
  obtain ⟨machine, log, reported⟩ := echoes
  simp only at machine log reported
  subst machine log
  cases reported with
  | some reported => exact ⟨rfl, rfl, .some reported⟩
  | none =>
    obtain ⟨machine, told, reached⟩ := steps lastToo
    refine ⟨machine, ?_, reached⟩
    simp only [Run.advance, told]

theorem Run.Echoes.continued {run echo : Run} (echoes : run.Echoes echo)
    (steps : ∀ machine : Machine, (machine.step program).Echoes (machine.step other))
    (fuel : Nat) : (run.continued program fuel).Echoes (echo.continued other fuel) := by
  induction fuel with
  | zero => exact echoes
  | succ fuel ih =>
    rw [continued_succ, continued_succ]
    exact ih.advance steps

theorem execution_echoes
    (steps : ∀ machine : Machine, (machine.step program).Echoes (machine.step other))
    (size : other.size = program.size) (labels : other.labels = program.labels) (fuel : Nat)
    (machine : Machine) :
    Option.Rel Execution.Echoes (machine.execution? fuel program)
      (machine.execution? fuel other) := by
  have start : (Run.start machine).Echoes (Run.start machine) := ⟨rfl, rfl, .none⟩
  have runs := start.continued steps fuel
  rw [Machine.execution?, Machine.execution?]
  generalize (Run.start machine).continued program fuel = run at runs
  generalize (Run.start machine).continued other fuel = echo at runs
  obtain ⟨last, events, ending⟩ := run
  obtain ⟨lastToo, eventsToo, endingToo⟩ := echo
  obtain ⟨same, log, reported⟩ := runs
  simp only at same log reported
  subst same log
  cases reported with
  | none => exact .none
  | some reported =>
    refine .some ⟨reported.closed _, reported.flushed _, ?_⟩
    refine ⟨.started program.size program.labels.length :: eventsToo.reverse, rfl, ?_⟩
    rw [size, labels]
    rfl

end Echoes

/-- Records that build can be abridged: operands that are out of reach can be left out, and
mnemonics can have any letter case. What is built has the same labels. From any machine and with
any number of steps it runs to the same machine, with the same events and the same end. Only
where the run ends with an unknown opcode, its text is reported in the other letter case, as the
end and in the event that closes the log. -/
theorem abridged_records_run_alike {records others : List Instruction} {program : Program}
    (built : Program.build records = .ok program)
    (abridged : List.Forall₂ Instruction.AbridgedTo records others) :
    ∃ other, Program.build others = .ok other ∧ other.labels = program.labels ∧
      List.Forall₂ Instruction.AbridgedTo program.instructions other.instructions ∧
      ∀ (machine : Machine) (fuel : Nat),
        ((Run.start machine).continued program fuel).Echoes
          ((Run.start machine).continued other fuel) ∧
        Option.Rel Execution.Echoes (machine.execution? fuel program)
          (machine.execution? fuel other) ∧
        ∀ execution, machine.execution? fuel program = some execution →
          (∀ place text, execution.ending ≠ .failed ⟨place, .unknownOpcode text⟩) →
          machine.execution? fuel other = some execution := by
  obtain ⟨other, builtToo, labels, each⟩ := exists_abridged built abridged
  refine ⟨other, builtToo, labels, each, fun machine fuel => ?_⟩
  have steps := step_echoes each labels
  have start : (Run.start machine).Echoes (Run.start machine) := ⟨rfl, rfl, .none⟩
  have executions := execution_echoes steps each.length_eq.symm labels fuel machine
  refine ⟨start.continued steps fuel, executions, fun execution executed known => ?_⟩
  rw [executed] at executions
  generalize machine.execution? fuel other = echo? at executions
  cases executions with
  | some echoes => rw [echoes.eq known]

/-- Every record has an operand too many. The third operand of NOTS is not one of these. -/
def lavish : List Instruction :=
  [⟨10, "DefVar".toList, [⟨.var, "GF@b".toList⟩, ⟨.type, "int".toList⟩]⟩,
    ⟨20, "nots".toList, [⟨.var, "GF@b".toList⟩, ⟨.literal .bool, "true".toList⟩,
      ⟨.literal .bool, "false".toList⟩, ⟨.var, "GF@c".toList⟩]⟩,
    ⟨30, "Label".toList, [⟨.label, ['e']⟩]⟩,
    ⟨40, "WRITE".toList, [⟨.var, "GF@b".toList⟩, ⟨.literal .int, ['?']⟩]⟩,
    ⟨50, "exit".toList, [⟨.literal .int, ['7']⟩, ⟨.label, ['x']⟩]⟩]

/-- The same records with nothing but what is needed, and with their mnemonics in capitals. -/
def frugal : List Instruction :=
  [⟨10, "DEFVAR".toList, [⟨.var, "GF@b".toList⟩]⟩,
    ⟨20, "NOTS".toList, [⟨.var, "GF@b".toList⟩, ⟨.literal .bool, "true".toList⟩,
      ⟨.literal .bool, "false".toList⟩]⟩,
    ⟨30, "LABEL".toList, [⟨.label, ['e']⟩]⟩,
    ⟨40, "WRITE".toList, [⟨.var, "GF@b".toList⟩]⟩,
    ⟨50, "EXIT".toList, [⟨.literal .int, ['7']⟩]⟩]

/-- Both write that false is not true, and then exit with the same code and the same log. -/
theorem surplus_is_not_missed :
    ∃ program other execution, Program.build lavish = .ok program ∧
      Program.build frugal = .ok other ∧ other.labels = program.labels ∧
      other.instructions ≠ program.instructions ∧
      (Machine.start ⟨[]⟩ .unbounded).execution? 9 program = some execution ∧
      (Machine.start ⟨[]⟩ .unbounded).execution? 9 other = some execution ∧
      execution.ending = .halted (.exit 7) ∧ execution.machine.output.text = "true".toList := by
  let program : Program := ⟨lavish, [(['e'], 2)]⟩
  have built : Program.build lavish = .ok program := by decide +kernel
  have abridged : List.Forall₂ Instruction.AbridgedTo lavish frugal :=
    .cons (Instruction.abridgedTo_abridged rfl) <| .cons (Instruction.abridgedTo_abridged rfl) <|
      .cons (Instruction.abridgedTo_abridged rfl) <|
        .cons (Instruction.abridgedTo_abridged rfl) <|
          .cons (Instruction.abridgedTo_abridged rfl) .nil
  obtain ⟨other, builtToo, labels, _, alike⟩ := abridged_records_run_alike built abridged
  obtain ⟨_, _, sameExecution⟩ := alike (.start ⟨[]⟩ .unbounded) 9
  have ends : ((Machine.start ⟨[]⟩ .unbounded).execution? 9 program).map
      (fun execution => (execution.ending, execution.machine.output.text)) =
      some (.halted (.exit 7), "true".toList) := by decide +kernel
  obtain ⟨execution, executed, shown⟩ := Option.map_eq_some_iff.mp ends
  obtain ⟨ending, written⟩ := Prod.mk.inj shown
  have known (place : Nat) (text : Text) :
      execution.ending ≠ .failed ⟨place, .unknownOpcode text⟩ := by
    rw [ending]
    exact nofun
  have differs : other.instructions ≠ program.instructions := by
    rw [(Program.build_eq_ok builtToo).1]
    decide +kernel
  exact ⟨program, other, execution, built, builtToo, labels, differs, executed,
    sameExecution execution executed known, ending, written⟩

/-- The log is not the same throughout: its closing line quotes an unknown mnemonic as it is
spelled. -/
theorem spelling_shows_in_log :
    ∃ program other, Program.build [⟨1, "foo".toList, []⟩] = .ok program ∧
      Program.build [⟨1, "FOO".toList, []⟩] = .ok other ∧
      Instruction.AbridgedTo ⟨1, "foo".toList, []⟩ ⟨1, "FOO".toList, []⟩ ∧
      ((Machine.start ⟨[]⟩ .unbounded).execution? 1 other).map Execution.log ≠
        ((Machine.start ⟨[]⟩ .unbounded).execution? 1 program).map Execution.log ∧
      ((Machine.start ⟨[]⟩ .unbounded).execution? 1 program).map
          (fun execution => execution.log.map Event.line) =
        some ["INFO run started instructions=1 labels=0",
          "WARN run aborted error=unknown opcode 'foo' at instruction 0 code=32 steps=0"] ∧
      ((Machine.start ⟨[]⟩ .unbounded).execution? 1 other).map
          (fun execution => execution.log.map Event.line) =
        some ["INFO run started instructions=1 labels=0",
          "WARN run aborted error=unknown opcode 'FOO' at instruction 0 code=32 steps=0"] := by
  refine ⟨⟨[⟨1, "foo".toList, []⟩], []⟩, ⟨[⟨1, "FOO".toList, []⟩], []⟩, ?_, ?_, ?_, ?_, ?_, ?_⟩
  · decide +kernel
  · decide +kernel
  · exact Instruction.abridgedTo_abridged rfl
  · decide +kernel
  · decide +kernel
  · decide +kernel

end IPPcode24
