import IPPcode24.Proofs.Attempt

/-!
# Stages of a plan

Once the operand classes are checked, every plan is made in the same stages: the
label is looked up, the arguments are looked up in order, the action works on
their values alone, and what comes of it is aimed at what the first operand names.
The stages are stated once for all actions, and `plan_eq_staged` says that they
make up the plan.
-/

namespace IPPcode24

/-- What the operands of an action must be, in order. -/
def Action.signature : Action → List Slot
  | move | negation | intToChar | length | typeOf | intToFloat | floatToInt => [.var, .symbol]
  | createFrame | pushFrame | popFrame | ret | inspect => []
  | define => [.var]
  | call | pass | jump => [.label]
  | read => [.var, .type]
  | write | exit | print => [.symbol]
  | jumpIf _ => [.label, .symbol, .symbol]
  | arithmetic _ | relation _ | connective _ | charToInt | concat | getChar | setChar =>
    [.var, .symbol, .symbol]

theorem Opcode.signature_eq (opcode : Opcode) : opcode.signature = opcode.action.signature := by
  cases opcode <;> rfl

namespace Action

/-- The positions of the operands whose values an action works on, in the order in
which they are looked up, when there are so many operands. -/
def positions (order : SymbolOrder) (count : Nat) : Action → List Nat
  | move | intToChar | read | length | typeOf | intToFloat | floatToInt => [1]
  | arithmetic _ | relation _ | connective _ => [(order.arrange 1 2).1, (order.arrange 1 2).2]
  | negation => if order = .reversed ∧ 2 < count then [2] else [1]
  | charToInt | concat | getChar | jumpIf _ => [1, 2]
  | setChar => [0, 1, 2]
  | write | exit => [0]
  | createFrame | pushFrame | popFrame | define | call | ret | pass | jump | print
  | inspect => []

def arguments (action : Action) (order : SymbolOrder) (operands : List Operand) :
    List Operand :=
  (action.positions order operands.length).filterMap (operands[·]?)

/-- What an argument stands for: READ takes the name of a type, TYPE also a
variable without a value, and every other action a value. -/
def lookUp (frames : Frames) : Action → Operand → Attempt Value
  | read, operand => .ok (.string operand.text)
  | typeOf, operand => frames.content operand
  | _, operand => frames.value operand

/-- Whether the first operand of an action is a label to go to. -/
def namesLabel : Action → Bool
  | call | jump | jumpIf _ => true
  | _ => false

def requireLabel (action : Action) (labels : LabelTable) : List Operand → Attempt Unit
  | [] => return ()
  | operand :: _ => if action.namesLabel then do let _ ← labels.target operand else return ()

/-- A third operand that a negation in reversed order is given must be a symbol. -/
def requireSymbol (order : SymbolOrder) : Action → List Operand → Attempt Unit
  | negation, _ :: _ :: third :: _ =>
    match order with
    | .reversed => orError (checkClass .symbol 2 third.operandClass)
    | .written => return ()
  | _, _ => return ()

end Action

/-- What comes of an action: an effect by itself, or what is to happen to the
variable or the label that the first operand names. -/
inductive Outcome where
  | alone (effect : Effect)
  | define
  | assign (value : Value)
  | read (kind : Kind)
  | print
  | jump
  | call
deriving DecidableEq

def onOne (result : Value → Attempt Outcome) : List Value → Attempt Outcome
  | [value] => result value
  | _ => return .alone .pass

def onTwo (result : Value → Value → Attempt Outcome) : List Value → Attempt Outcome
  | [first, second] => result first second
  | _ => return .alone .pass

def onThree (result : Value → Value → Value → Attempt Outcome) : List Value → Attempt Outcome
  | [first, second, third] => result first second third
  | _ => return .alone .pass

/-- What comes of an action on the values of its arguments. -/
def Action.outcome : Action → List Value → Attempt Outcome
  | move => onOne fun value => return .assign value
  | createFrame => fun _ => return .alone .createFrame
  | pushFrame => fun _ => return .alone .pushFrame
  | popFrame => fun _ => return .alone .popFrame
  | define => fun _ => return .define
  | call => fun _ => return .call
  | ret => fun _ => return .alone .ret
  | arithmetic operation => onTwo fun left right => do
    let a ← orError left.asInt
    let b ← orError right.asInt
    let result ← orError ((operation.apply a b).mapError OperationError.fault)
    return .assign (.int result)
  | relation wanted => onTwo fun left right => do
    let result ← orError ((left.compares wanted right).mapError OperationError.fault)
    return .assign (.bool result)
  | connective operation => onTwo fun left right => do
    let a ← orError left.asBool
    let b ← orError right.asBool
    return .assign (.bool (operation.apply a b))
  | negation => onOne fun value => do
    let b ← orError value.asBool
    return .assign (.bool !b)
  | intToChar => onOne fun value => do
    let code ← orError value.asInt
    let c ← orError ((Text.ofCodePoint code).mapError OperationError.fault)
    return .assign (.string [c])
  | charToInt => onTwo fun text index => do
    let c ← characterOf text index
    return .assign (.int (Int64.ofNat c.toNat))
  | read => onOne fun name => do
    let kind ← orError name.asKind
    return .read kind
  | write => onOne fun value =>
    if value.written = [] then fail .missingValue
    else return .alone (.write value.written)
  | concat => onTwo fun left right => do
    let a ← orError left.asText
    let b ← orError right.asText
    return .assign (.string (a ++ b))
  | length => onOne fun value => do
    let text ← orError value.asText
    let n ← integerLength text
    return .assign (.int n)
  | getChar => onTwo fun text index => do
    let c ← characterOf text index
    return .assign (.string [c])
  | setChar => onThree fun current index replacement => do
    let text ← orError current.asText
    let index ← orError index.asInt
    let replacement ← orError replacement.asText
    let result ← orError
      ((Text.setCharAt text index replacement).mapError OperationError.fault)
    return .assign (.string result)
  | typeOf => onOne fun content => return .assign (.string content.kind.name.toList)
  | pass => fun _ => return .alone .pass
  | jump => fun _ => return .jump
  | jumpIf equal => onTwo fun left right => do
    let result ← orError ((left.compares .eq right).mapError OperationError.fault)
    return if result = equal then .jump else .alone .pass
  | exit => onOne fun value => do
    let code ← orError value.asInt
    let effect ← exitWith code
    return .alone effect
  | print => fun _ => return .print
  | inspect => fun _ => return .alone .inspect
  | intToFloat => onOne fun value => do
    let n ← orError value.asInt
    return .assign (.float (Binary64.ofInt n.toInt))
  | floatToInt => onOne fun value => do
    let x ← orError value.asFloat
    let n ← orError (x.toInteger.mapError OperationError.fault)
    return .assign (.int n)

/-- The effect of an outcome, aimed at what the first operand names. -/
def Outcome.effect (labels : LabelTable) (operands : List Operand) : Outcome → Attempt Effect
  | alone effect => return effect
  | define => do
    let target ← operandAt operands 0
    let ref ← target.reference
    return .define ref
  | assign value => assignFirst operands value
  | read kind => do
    let target ← operandAt operands 0
    return .read target kind
  | print => do
    let operand ← operandAt operands 0
    return .print operand
  | jump => do
    let place ← labels.target (← operandAt operands 0)
    return .jump place
  | call => do
    let place ← labels.target (← operandAt operands 0)
    return .call place

/-- The plan of an action, stage by stage. -/
def Action.staged (action : Action) (labels : LabelTable) (frames : Frames)
    (order : SymbolOrder) (operands : List Operand) : Attempt Effect := do
  action.requireLabel labels operands
  action.requireSymbol order operands
  let values ← (action.arguments order operands).mapM (action.lookUp frames)
  let outcome ← action.outcome values
  outcome.effect labels operands

section Shape

variable {α : Type} {elements : List α}

theorem exists_of_one_le (enough : 1 ≤ elements.length) : ∃ a rest, elements = a :: rest := by
  obtain _ | ⟨a, rest⟩ := elements
  · simp at enough
  · exact ⟨a, rest, rfl⟩

theorem exists_of_two_le (enough : 2 ≤ elements.length) :
    ∃ a b rest, elements = a :: b :: rest := by
  obtain ⟨a, rest, rfl⟩ := exists_of_one_le (Nat.le_of_succ_le enough)
  obtain ⟨b, rest, rfl⟩ := exists_of_one_le (Nat.le_of_succ_le_succ enough)
  exact ⟨a, b, rest, rfl⟩

theorem exists_of_three_le (enough : 3 ≤ elements.length) :
    ∃ a b c rest, elements = a :: b :: c :: rest := by
  obtain ⟨a, b, rest, rfl⟩ := exists_of_two_le (Nat.le_of_succ_le enough)
  have third : 1 ≤ rest.length := by simp only [List.length_cons] at enough; omega
  obtain ⟨c, rest, rfl⟩ := exists_of_one_le third
  exact ⟨a, b, c, rest, rfl⟩

end Shape

@[simp] theorem operandAt_zero (a : Operand) (rest : List Operand) :
    operandAt (a :: rest) 0 = .ok a := rfl

@[simp] theorem operandAt_one (a b : Operand) (rest : List Operand) :
    operandAt (a :: b :: rest) 1 = .ok b := rfl

@[simp] theorem operandAt_two (a b c : Operand) (rest : List Operand) :
    operandAt (a :: b :: c :: rest) 2 = .ok c := rfl

theorem valuesOfPair_eq (frames : Frames) (order : SymbolOrder) (a b c : Operand)
    (rest : List Operand) :
    valuesOfPair frames order (a :: b :: c :: rest) = do
      let left ← frames.value (order.arrange b c).1
      let right ← frames.value (order.arrange b c).2
      return (left, right) := rfl

theorem Action.requireLabel_of_not {action : Action} (other : action.namesLabel = false)
    (labels : LabelTable) (operands : List Operand) :
    action.requireLabel labels operands = .ok () := by
  cases operands with
  | nil => rfl
  | cons operand rest => simp [requireLabel, other]

/-- Every plan is made in stages, whatever the labels, the frames and the classes of
the operands. -/
theorem Action.plan_eq_staged {action : Action} {labels : LabelTable} {frames : Frames}
    {order : SymbolOrder} {operands : List Operand}
    (enough : action.signature.length ≤ operands.length) :
    action.plan labels frames order operands = action.staged labels frames order operands := by
  -- one case for each number of operands that the stages look at
  rw [staged]
  cases action with
  | createFrame | pushFrame | popFrame | ret | inspect | pass | define | print =>
    rw [requireLabel_of_not rfl]
    simp [plan, requireSymbol, arguments, positions, outcome, Outcome.effect]
  | call | jump =>
    obtain ⟨label, rest, rfl⟩ := exists_of_one_le enough
    cases found : labels.target label <;>
    simp [plan, requireLabel, namesLabel, requireSymbol, arguments, positions, outcome,
      Outcome.effect, found]
  | write =>
    obtain ⟨symbol, rest, rfl⟩ := exists_of_one_le enough
    have looked : write.arguments order (symbol :: rest) = [symbol] := rfl
    rw [requireLabel_of_not rfl]
    simp only [plan, requireSymbol, looked, lookUp, outcome, onOne, valueAt, operandAt_zero,
      List.mapM_cons, List.mapM_nil, Chain.bind_ok, Chain.pure_eq_ok, bind_assoc]
    refine bind_congr fun value => ?_
    split <;> rfl
  | exit =>
    obtain ⟨symbol, rest, rfl⟩ := exists_of_one_le enough
    have looked : exit.arguments order (symbol :: rest) = [symbol] := rfl
    rw [requireLabel_of_not rfl]
    simp [plan, requireSymbol, looked, lookUp, outcome, onOne, Outcome.effect, valueAt]
  | move | intToChar | length | typeOf | intToFloat | floatToInt | read =>
    obtain ⟨target, symbol, rest, rfl⟩ := exists_of_two_le enough
    rw [requireLabel_of_not rfl]
    simp [plan, requireSymbol, arguments, positions, lookUp, outcome, onOne, Outcome.effect,
      valueAt]
  | arithmetic _ | relation _ | connective _ =>
    obtain ⟨target, second, third, rest, rfl⟩ := exists_of_three_le enough
    rw [requireLabel_of_not rfl]
    cases order <;>
    simp [plan, requireSymbol, arguments, positions, lookUp, outcome, onTwo, Outcome.effect,
      valuesOfPair_eq, SymbolOrder.arrange]
  | charToInt | concat | getChar =>
    obtain ⟨target, second, third, rest, rfl⟩ := exists_of_three_le enough
    rw [requireLabel_of_not rfl]
    simp [plan, requireSymbol, arguments, positions, lookUp, outcome, onTwo, Outcome.effect,
      valuesOfPair_eq, SymbolOrder.arrange]
  | setChar =>
    obtain ⟨target, second, third, rest, rfl⟩ := exists_of_three_le enough
    rw [requireLabel_of_not rfl]
    simp [plan, requireSymbol, arguments, positions, lookUp, outcome, onThree, Outcome.effect,
      valueAt, valuesOfPair_eq, SymbolOrder.arrange]
  | negation =>
    obtain ⟨target, second, rest, rfl⟩ := exists_of_two_le enough
    rw [requireLabel_of_not rfl]
    cases order <;> cases rest <;>
    simp [plan, requireSymbol, arguments, positions, lookUp, outcome, onOne, Outcome.effect,
      negated]
  | jumpIf equal =>
    obtain ⟨label, left, right, rest, rfl⟩ := exists_of_three_le enough
    have looked : (jumpIf equal).arguments order (label :: left :: right :: rest) =
        [left, right] := rfl
    cases found : labels.target label with
    | error failure => simp [plan, requireLabel, namesLabel, found]
    | ok place =>
      simp only [plan, requireLabel, namesLabel, requireSymbol, looked, lookUp, outcome, onTwo,
        valuesOfPair_eq, SymbolOrder.arrange, operandAt_zero, found, List.mapM_cons,
        List.mapM_nil, Chain.bind_ok, Chain.pure_eq_ok, bind_assoc]
      refine bind_congr fun leftValue => bind_congr fun rightValue => bind_congr fun result => ?_
      split <;> simp [Outcome.effect, found]

end IPPcode24
