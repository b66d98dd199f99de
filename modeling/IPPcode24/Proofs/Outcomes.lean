import IPPcode24.Proofs.Stages

/-!
# Outcomes of actions

Each action has its own effects: only calls push return addresses, only returns
pop them, only jumps go elsewhere, and only actions whose first operand is a
variable assign to one.
-/

namespace IPPcode24

/-- The effects that an action has by itself, whatever its first operand names. -/
def Effect.Alone (action : Action) : Effect → Prop
  | pass => True
  | write _ => action = .write
  | createFrame => action = .createFrame
  | pushFrame => action = .pushFrame
  | popFrame => action = .popFrame
  | ret => action = .ret
  | exit _ => action = .exit
  | inspect => action = .inspect
  | _ => False

/-- The outcomes that an action has. -/
def Outcome.Of (action : Action) : Outcome → Prop
  | alone effect => effect.Alone action
  | define => action = .define
  | assign _ => ∃ slots, action.signature = .var :: slots
  | read _ => action = .read
  | print => action = .print
  | jump => action = .jump ∨ ∃ equal, action = .jumpIf equal
  | call => action = .call

/-- What the attempt gives, if anything, has the property. -/
def Gives {α : Type} (property : α → Prop) (attempt : Attempt α) : Prop :=
  ∀ a, attempt = .ok a → property a

namespace Gives

variable {α β : Type} {property : β → Prop}

theorem ok {b : β} (holds : property b) : Gives property (.ok b) := by
  intro a given
  cases given
  exact holds

theorem error {failure : Failure Fault} : Gives property (.error failure) := nofun

theorem bind {first : Attempt α} {next : α → Attempt β}
    (holds : ∀ a, first = .ok a → Gives property (next a)) : Gives property (first >>= next) := by
  intro b given
  obtain ⟨a, hfirst, hnext⟩ := Chain.bind_eq_ok.mp given
  exact holds a hfirst b hnext

end Gives

section Counts

variable {property : Outcome → Prop} {values : List Value}

theorem gives_onOne {result : Value → Attempt Outcome} (passes : property (.alone .pass))
    (holds : ∀ value, Gives property (result value)) : Gives property (onOne result values) := by
  unfold onOne
  split
  · exact holds _
  · exact .ok passes

theorem gives_onTwo {result : Value → Value → Attempt Outcome} (passes : property (.alone .pass))
    (holds : ∀ first second, Gives property (result first second)) :
    Gives property (onTwo result values) := by
  unfold onTwo
  split
  · exact holds _ _
  · exact .ok passes

theorem gives_onThree {result : Value → Value → Value → Attempt Outcome}
    (passes : property (.alone .pass))
    (holds : ∀ first second third, Gives property (result first second third)) :
    Gives property (onThree result values) := by
  unfold onThree
  split
  · exact holds _ _ _
  · exact .ok passes

end Counts

theorem exitWith_gives (code : Int64) : Gives (Effect.Alone .exit) (exitWith code) := by
  rw [exitWith]
  split
  · exact .ok rfl
  · exact .error

/-- Whatever the values, what comes of an action is one of its own outcomes. -/
theorem Action.outcome_gives (action : Action) (values : List Value) :
    Gives (Outcome.Of action) (action.outcome values) := by
  cases action with
  | createFrame | pushFrame | popFrame | define | call | ret | print | inspect =>
    exact .ok rfl
  | pass => exact .ok trivial
  | jump => exact .ok (Or.inl rfl)
  | move | typeOf => exact gives_onOne trivial fun _ => .ok ⟨_, rfl⟩
  | arithmetic _ =>
    refine gives_onTwo trivial fun left right => ?_
    refine .bind fun a _ => .bind fun b _ => .bind fun result _ => ?_
    exact .ok ⟨_, rfl⟩
  | connective _ | concat =>
    refine gives_onTwo trivial fun left right => ?_
    exact .bind fun a _ => .bind fun b _ => .ok ⟨_, rfl⟩
  | relation _ | charToInt | getChar =>
    refine gives_onTwo trivial fun left right => ?_
    exact .bind fun result _ => .ok ⟨_, rfl⟩
  | negation | intToFloat =>
    refine gives_onOne trivial fun value => ?_
    exact .bind fun _ _ => .ok ⟨_, rfl⟩
  | intToChar | length | floatToInt =>
    refine gives_onOne trivial fun value => ?_
    exact .bind fun _ _ => .bind fun _ _ => .ok ⟨_, rfl⟩
  | read =>
    refine gives_onOne trivial fun name => ?_
    exact .bind fun kind _ => .ok rfl
  | write =>
    refine gives_onOne trivial fun value => ?_
    split
    · exact .error
    · exact .ok rfl
  | setChar =>
    refine gives_onThree trivial fun current index replacement => ?_
    refine .bind fun text _ => .bind fun position _ => .bind fun content _ => ?_
    exact .bind fun result _ => .ok ⟨_, rfl⟩
  | jumpIf equal =>
    refine gives_onTwo trivial fun left right => .bind fun result _ => .ok ?_
    split
    · exact Or.inr ⟨equal, rfl⟩
    · trivial
  | exit =>
    refine gives_onOne trivial fun value => .bind fun code _ => .bind fun effect given => ?_
    exact .ok (exitWith_gives code effect given)

end IPPcode24
