import IPPcode24.Proofs.Stages

/-!
# Complaints of actions

An action that works on values never crashes. The faults it can report are listed
here, each with the value or the values that it is about: a kind that does not
serve, a float that is not an integer, two kinds without an order, and the failures
of the operations themselves.
-/

namespace IPPcode24

/-- The attempt never crashes, and its faults have the property. -/
def FailsWith {α : Type} (property : Fault → Prop) (attempt : Attempt α) : Prop :=
  ∀ failure, attempt = .error failure → ∃ fault, failure = .error fault ∧ property fault

namespace FailsWith

variable {α β : Type} {property : Fault → Prop}

theorem ok (a : α) : FailsWith property (.ok a : Attempt α) := nofun

theorem error {fault : Fault} (holds : property fault) :
    FailsWith property (fail fault : Attempt α) := by
  intro failure failed
  cases failed
  exact ⟨fault, rfl, holds⟩

theorem bind {first : Attempt α} {next : α → Attempt β} (hfirst : FailsWith property first)
    (hnext : ∀ a, first = .ok a → FailsWith property (next a)) :
    FailsWith property (first >>= next) := by
  intro failure failed
  rcases Chain.bind_eq_error.mp failed with failed | ⟨a, succeeded, failed⟩
  · exact hfirst failure failed
  · exact hnext a succeeded failure failed

theorem orError {attempt : Except Fault α}
    (holds : ∀ fault, attempt = .error fault → property fault) :
    FailsWith property (orError attempt) := by
  intro failure failed
  obtain ⟨fault, refused, rfl⟩ := orError_eq_error.mp failed
  exact ⟨fault, rfl, holds fault refused⟩

theorem operation {attempt : Except OperationError α}
    (holds : ∀ error, attempt = .error error → property error.fault) :
    FailsWith property (IPPcode24.orError (attempt.mapError OperationError.fault)) := by
  refine orError fun fault failed => ?_
  obtain ⟨error, refused, rfl⟩ := Chain.mapError_eq_error.mp failed
  exact holds error refused

end FailsWith

/-- The kind of the values that meet a requirement. -/
def Requirement.kind : Requirement → Kind
  | int => .int
  | bool => .bool
  | typeName => .string
  | string => .string
  | float => .float

/-- The action works on what its symbols hold. READ works on the name of a type instead,
and TYPE looks at variables that may hold nothing. -/
def Action.TakesValues (action : Action) : Prop := action ≠ .read ∧ action ≠ .typeOf

/-- What an action can find wrong with the values of its arguments. -/
inductive Complaint (action : Action) (values : List Value) : Fault → Prop where
  | missing : Complaint action values .missingValue
  | wrongKind {value : Value} {required : Requirement} (takes : action.TakesValues)
      (given : value ∈ values) (differs : value.kind ≠ required.kind) :
      Complaint action values (.operandValue (.wrongKind required value.kind))
  | noName {value : Value} (reads : action = .read) (given : value ∈ values)
      (differs : value.kind ≠ .string) :
      Complaint action values (.operandValue (.wrongKind .typeName value.kind))
  | noTypeName {text : Text} (reads : action = .read) (given : .string text ∈ values)
      (unknown : Kind.ofName? text = none) :
      Complaint action values (.operandValue (.notTypeName text))
  | fractional {x : Binary64} (takes : action.TakesValues) (given : .float x ∈ values)
      (unequal : x.integral? = none) :
      Complaint action values (.operandValue (.mismatch (.fractional x)))
  | noInteger {x : Binary64} (takes : action.TakesValues) (given : .float x ∈ values)
      (outside : x.toInt? = none) :
      Complaint action values (.operandValue (.mismatch (.noInteger x)))
  | unordered {left right : Value} (takes : action.TakesValues) (leftGiven : left ∈ values)
      (rightGiven : right ∈ values) (either : left = .nil ∨ right = .nil) :
      Complaint action values (.operandValue (.mismatch (.unordered left.kind right.kind)))
  | incomparable {left right : Value} (takes : action.TakesValues) (leftGiven : left ∈ values)
      (rightGiven : right ∈ values) (differs : left.kind ≠ right.kind) :
      Complaint action values (.operandValue (.mismatch (.incomparable left.kind right.kind)))
  | divisionByZero : Complaint action values .divisionByZero
  | exitCode (code : Int64) : Complaint action values (.exitCode code)
  | character (reason : CharacterError) : Complaint action values (.character reason)
  | tooLong {text : Text} (takes : action.TakesValues) (given : .string text ∈ values)
      (long : 0x8000000000000000 ≤ text.length) :
      Complaint action values (.internal .lengthOutOfRange)

section Values

variable {action : Action} {values : List Value} {value : Value}

theorem complaint_unfit {required : Requirement} (takes : action.TakesValues)
    (given : value ∈ values) (differs : value.kind ≠ required.kind) :
    Complaint action values (value.unfit required) := by
  rw [Value.unfit]
  split
  · exact .missing
  · exact .wrongKind takes given differs

theorem complaint_of_asInteger {x : Binary64} {error : OperationError}
    (failed : x.asInteger = .error error) (takes : action.TakesValues)
    (given : .float x ∈ values) : Complaint action values error.fault := by
  rw [Binary64.asInteger] at failed
  split at failed
  · cases failed
  · rename_i unequal
    cases failed
    exact .fractional takes given unequal

theorem complaint_of_toInteger {x : Binary64} {error : OperationError}
    (failed : x.toInteger = .error error) (takes : action.TakesValues)
    (given : .float x ∈ values) : Complaint action values error.fault := by
  rw [Binary64.toInteger] at failed
  split at failed
  · cases failed
  · rename_i outside
    cases failed
    exact .noInteger takes given outside

theorem asInt_failsWith (takes : action.TakesValues) (given : value ∈ values) :
    FailsWith (Complaint action values) (orError value.asInt) := by
  cases value with
  | int n => exact .ok n
  | float x => exact .operation fun error failed => complaint_of_asInteger failed takes given
  | bool _ | string _ | nil | uninitialized =>
    exact .error (complaint_unfit takes given nofun)

theorem asBool_failsWith (takes : action.TakesValues) (given : value ∈ values) :
    FailsWith (Complaint action values) (orError value.asBool) := by
  cases value with
  | bool b => exact .ok b
  | int _ | string _ | float _ | nil | uninitialized =>
    exact .error (complaint_unfit takes given nofun)

theorem asText_failsWith (takes : action.TakesValues) (given : value ∈ values) :
    FailsWith (Complaint action values) (orError value.asText) := by
  cases value with
  | string text => exact .ok text
  | int _ | bool _ | float _ | nil | uninitialized =>
    exact .error (complaint_unfit takes given nofun)

theorem asFloat_failsWith (takes : action.TakesValues) (given : value ∈ values) :
    FailsWith (Complaint action values) (orError value.asFloat) := by
  cases value with
  | float x => exact .ok x
  | int _ | bool _ | string _ | nil | uninitialized =>
    exact .error (complaint_unfit takes given nofun)

theorem asKind_failsWith (given : value ∈ values) :
    FailsWith (Complaint .read values) (orError value.asKind) := by
  refine .orError fun fault failed => ?_
  cases value with
  | string text =>
    simp only [Value.asKind] at failed
    split at failed
    · cases failed
    · cases failed
      exact .noTypeName rfl given ‹_›
  | uninitialized =>
    cases failed
    exact .missing
  | int _ | bool _ | float _ | nil =>
    cases failed
    exact .noName rfl given nofun

theorem toInteger_failsWith {x : Binary64} (takes : action.TakesValues)
    (given : .float x ∈ values) :
    FailsWith (Complaint action values)
      (orError (x.toInteger.mapError OperationError.fault)) :=
  .operation fun _ failed => complaint_of_toInteger failed takes given

theorem apply_failsWith (operation : Arithmetic) (a b : Int64) :
    FailsWith (Complaint action values)
      (orError ((operation.apply a b).mapError OperationError.fault)) := by
  refine .operation fun error failed => ?_
  cases operation with
  | add | sub | mul => cases failed
  | idiv =>
    simp only [Arithmetic.apply] at failed
    split at failed
    · cases failed
      exact .divisionByZero
    · cases failed

/-- A value that is neither missing nor nil has an order with each value of its kind. -/
theorem complaint_of_order? {left right : Value} {error : OperationError}
    (failed : left.order? right = .error error) (takes : action.TakesValues)
    (leftGiven : left ∈ values) (rightGiven : right ∈ values)
    (present : left ≠ .uninitialized) (notNil : left ≠ .nil) :
    Complaint action values error.fault := by
  unfold Value.order? at failed
  split at failed
  · cases failed
  · cases failed
  · cases failed
  · cases failed
  · rcases Chain.bind_eq_error.mp failed with failed | ⟨_, _, failed⟩
    · exact complaint_of_asInteger failed takes rightGiven
    · cases failed
  · rcases Chain.bind_eq_error.mp failed with failed | ⟨_, _, failed⟩
    · exact complaint_of_toInteger failed takes leftGiven
    · cases failed
  · cases failed
    refine .incomparable takes leftGiven rightGiven fun same => ?_
    cases left <;> cases right <;> simp_all [Value.kind]

theorem compares_failsWith {wanted : Relation} {left right : Value}
    (takes : action.TakesValues) (leftGiven : left ∈ values) (rightGiven : right ∈ values) :
    FailsWith (Complaint action values)
      (orError ((left.compares wanted right).mapError OperationError.fault)) := by
  refine .operation fun error failed => ?_
  unfold Value.compares at failed
  split at failed
  · cases failed
    exact .missing
  · rename_i present
    have present : left ≠ .uninitialized := fun missing => present (by simp [missing])
    split at failed
    · rename_i nil
      have nil : left = .nil ∨ right = .nil := by simpa [Value.isNil] using nil
      cases wanted with
      | lt | gt =>
        cases failed
        exact .unordered takes leftGiven rightGiven nil
      | eq => cases failed
    · rename_i ordered
      have notNil : left ≠ .nil := fun nil => ordered (by simp [Value.isNil, nil])
      have failed := Chain.map_eq_error.mp failed
      exact complaint_of_order? failed takes leftGiven rightGiven present notNil

theorem characterOf_failsWith {text index : Value} (takes : action.TakesValues)
    (textGiven : text ∈ values) (indexGiven : index ∈ values) :
    FailsWith (Complaint action values) (characterOf text index) := by
  refine .bind (asText_failsWith takes textGiven) fun content _ => ?_
  refine .bind (asInt_failsWith takes indexGiven) fun position _ => ?_
  refine .operation fun error failed => ?_
  rw [Text.charAt] at failed
  split at failed
  · cases failed
  · cases failed
    exact .character _

theorem ofCodePoint_failsWith (code : Int64) :
    FailsWith (Complaint action values)
      (orError ((Text.ofCodePoint code).mapError OperationError.fault)) := by
  refine .operation fun error failed => ?_
  rw [Text.ofCodePoint] at failed
  split at failed
  · cases failed
  · cases failed
    exact .character _

theorem setCharAt_failsWith (text : Text) (index : Int64) (replacement : Text) :
    FailsWith (Complaint action values)
      (orError ((Text.setCharAt text index replacement).mapError OperationError.fault)) := by
  refine .operation fun error failed => ?_
  unfold Text.setCharAt at failed
  split at failed
  · cases failed
    exact .character _
  · split at failed
    · cases failed
    · cases failed
      exact .character _

theorem integerLength_failsWith {text : Text} (takes : action.TakesValues)
    (given : .string text ∈ values) :
    FailsWith (Complaint action values) (integerLength text) := by
  rw [integerLength]
  split
  · exact .ok _
  · exact .error (.tooLong takes given (by omega))

theorem exitWith_failsWith (code : Int64) :
    FailsWith (Complaint action values) (exitWith code) := by
  rw [exitWith]
  split
  · exact .ok _
  · exact .error (.exitCode code)

end Values

namespace FailsWith

variable {property : Fault → Prop} {values : List Value}

theorem onOne {result : Value → Attempt Outcome}
    (holds : ∀ value ∈ values, FailsWith property (result value)) :
    FailsWith property (onOne result values) := by
  unfold IPPcode24.onOne
  split
  · exact holds _ (by simp)
  · exact .ok _

theorem onTwo {result : Value → Value → Attempt Outcome}
    (holds : ∀ first ∈ values, ∀ second ∈ values, FailsWith property (result first second)) :
    FailsWith property (onTwo result values) := by
  unfold IPPcode24.onTwo
  split
  · exact holds _ (by simp) _ (by simp)
  · exact .ok _

theorem onThree {result : Value → Value → Value → Attempt Outcome}
    (holds : ∀ first ∈ values, ∀ second ∈ values, ∀ third ∈ values,
      FailsWith property (result first second third)) :
    FailsWith property (onThree result values) := by
  unfold IPPcode24.onThree
  split
  · exact holds _ (by simp) _ (by simp) _ (by simp)
  · exact .ok _

end FailsWith

theorem Value.eq_string_of_asText {value : Value} {text : Text}
    (succeeded : value.asText = .ok text) : value = .string text := by
  cases value with
  | string other => rw [Except.ok.inj succeeded]
  | int _ | bool _ | float _ | nil | uninitialized => cases succeeded

theorem Value.eq_float_of_asFloat {value : Value} {x : Binary64}
    (succeeded : value.asFloat = .ok x) : value = .float x := by
  cases value with
  | float other => rw [Except.ok.inj succeeded]
  | int _ | bool _ | string _ | nil | uninitialized => cases succeeded

/-- Whatever the values, an action does not crash on them and complains of them
only in the listed ways. -/
theorem Action.outcome_failsWith (action : Action) (values : List Value) :
    FailsWith (Complaint action values) (action.outcome values) := by
  cases action with
  | createFrame | pushFrame | popFrame | define | call | ret | pass | jump | print | inspect =>
    exact .ok _
  | move | typeOf => exact .onOne fun _ _ => .ok _
  | arithmetic operation =>
    refine .onTwo fun left hleft right hright => ?_
    refine .bind (asInt_failsWith ⟨nofun, nofun⟩ hleft) fun a _ => ?_
    refine .bind (asInt_failsWith ⟨nofun, nofun⟩ hright) fun b _ => ?_
    exact .bind (apply_failsWith operation a b) fun _ _ => .ok _
  | relation wanted =>
    refine .onTwo fun left hleft right hright => ?_
    exact .bind (compares_failsWith ⟨nofun, nofun⟩ hleft hright) fun _ _ => .ok _
  | connective operation =>
    refine .onTwo fun left hleft right hright => ?_
    refine .bind (asBool_failsWith ⟨nofun, nofun⟩ hleft) fun a _ => ?_
    exact .bind (asBool_failsWith ⟨nofun, nofun⟩ hright) fun b _ => .ok _
  | negation =>
    refine .onOne fun value given => ?_
    exact .bind (asBool_failsWith ⟨nofun, nofun⟩ given) fun _ _ => .ok _
  | intToChar =>
    refine .onOne fun value given => ?_
    refine .bind (asInt_failsWith ⟨nofun, nofun⟩ given) fun code _ => ?_
    exact .bind (ofCodePoint_failsWith code) fun _ _ => .ok _
  | charToInt | getChar =>
    refine .onTwo fun text htext index hindex => ?_
    exact .bind (characterOf_failsWith ⟨nofun, nofun⟩ htext hindex) fun _ _ => .ok _
  | read =>
    refine .onOne fun name given => ?_
    refine .bind (asKind_failsWith given) fun _ _ => .ok _
  | write =>
    refine .onOne fun value _ => ?_
    split
    · exact .error .missing
    · exact .ok _
  | concat =>
    refine .onTwo fun left hleft right hright => ?_
    refine .bind (asText_failsWith ⟨nofun, nofun⟩ hleft) fun a _ => ?_
    exact .bind (asText_failsWith ⟨nofun, nofun⟩ hright) fun b _ => .ok _
  | length =>
    refine .onOne fun value given => ?_
    refine .bind (asText_failsWith ⟨nofun, nofun⟩ given) fun text succeeded => ?_
    rw [Value.eq_string_of_asText (orError_eq_ok.mp succeeded)] at given
    exact .bind (integerLength_failsWith ⟨nofun, nofun⟩ given) fun _ _ => .ok _
  | setChar =>
    refine .onThree fun current hcurrent index hindex replacement hreplacement => ?_
    refine .bind (asText_failsWith ⟨nofun, nofun⟩ hcurrent) fun text _ => ?_
    refine .bind (asInt_failsWith ⟨nofun, nofun⟩ hindex) fun position _ => ?_
    refine .bind (asText_failsWith ⟨nofun, nofun⟩ hreplacement) fun content _ => ?_
    exact .bind (setCharAt_failsWith text position content) fun _ _ => .ok _
  | jumpIf equal =>
    refine .onTwo fun left hleft right hright => ?_
    exact .bind (compares_failsWith ⟨nofun, nofun⟩ hleft hright) fun _ _ => .ok _
  | exit =>
    refine .onOne fun value given => ?_
    refine .bind (asInt_failsWith ⟨nofun, nofun⟩ given) fun code _ => ?_
    exact .bind (exitWith_failsWith code) fun _ _ => .ok _
  | intToFloat =>
    refine .onOne fun value given => ?_
    exact .bind (asInt_failsWith ⟨nofun, nofun⟩ given) fun _ _ => .ok _
  | floatToInt =>
    refine .onOne fun value given => ?_
    refine .bind (asFloat_failsWith ⟨nofun, nofun⟩ given) fun x succeeded => ?_
    rw [Value.eq_float_of_asFloat (orError_eq_ok.mp succeeded)] at given
    exact .bind (toInteger_failsWith ⟨nofun, nofun⟩ given) fun _ _ => .ok _

end IPPcode24
