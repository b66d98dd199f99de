import IPPcode24.Proofs.Stages

/-!
# What symbols stand for

An operand of class variable stands for the content of the variable that it names,
and any other symbol for the value of its literal, which is of the type that the
operand declares.
-/

namespace IPPcode24

variable {frames : Frames} {operand : Operand} {text : Text}

theorem reference_eq_ok {ref : Variable} (named : operand.reference = .ok ref) :
    Variable.ofSource? operand.text = some ref := by
  rw [Operand.reference] at named
  split at named
  · rename_i found
    rw [found, Except.ok.inj named]
  · cases named

theorem literal_eq_ok {value : Value} (found : operand.literal = .ok value) :
    ∃ kind, operand.operandClass = .literal kind ∧
      Literal.decode kind operand.text = .ok (some value) := by
  rw [Operand.literal] at found
  split at found
  · rename_i kind isLiteral
    obtain ⟨value?, decoded, found⟩ := Chain.bind_eq_ok.mp found
    cases value? with
    | none => cases found
    | some other =>
      cases found
      exact ⟨kind, isLiteral, orCrash_eq_ok.mp decoded⟩
  · cases found

theorem asKind_eq_ok {kind : Kind} :
    (Value.string text).asKind = .ok kind ↔ Kind.ofName? text = some kind := by
  simp only [Value.asKind]
  cases Kind.ofName? text <;> simp

/-- A symbol stands for the content of the variable that it names, or for the value of
the literal that it is. -/
theorem content_eq_ok {value : Value} (found : frames.content operand = .ok value) :
    (∃ ref, operand.operandClass = .var ∧ Variable.ofSource? operand.text = some ref ∧
      frames.get ref = .ok value) ∨
    ∃ kind, operand.operandClass = .literal kind ∧
      Literal.decode kind operand.text = .ok (some value) := by
  rw [Frames.content] at found
  split at found
  · rename_i isVar
    obtain ⟨ref, named, found⟩ := Chain.bind_eq_ok.mp found
    exact Or.inl ⟨ref, isVar, reference_eq_ok named,
      Chain.mapError_eq_ok.mp (orError_eq_ok.mp found)⟩
  · exact Or.inr (literal_eq_ok found)

theorem value_eq_ok {value : Value} :
    frames.value operand = .ok value ↔
      frames.content operand = .ok value ∧ value ≠ .uninitialized := by
  rw [Frames.value]
  rw [Chain.bind_eq_ok]
  constructor
  · rintro ⟨content, found, given⟩
    cases content with
    | uninitialized => cases given
    | int _ | bool _ | string _ | float _ | nil =>
      cases given
      exact ⟨found, nofun⟩
  · rintro ⟨found, initialized⟩
    refine ⟨value, found, ?_⟩
    cases value with
    | uninitialized => exact absurd rfl initialized
    | int _ | bool _ | string _ | float _ | nil => rfl

/-- Whatever has a value may fill the slot of a symbol. -/
theorem isSymbol_of_value {value : Value}
    (found : frames.value operand = .ok value) : operand.operandClass.isSymbol = true := by
  rcases content_eq_ok (value_eq_ok.mp found).1 with ⟨_, isVar, _⟩ | ⟨kind, isLiteral, _⟩
  · rw [isVar]
    rfl
  · rw [isLiteral]
    rfl

/-- A literal stands for a value of its type, and a text for itself. -/
theorem decode_eq_some {kind : Kind} {value : Value}
    (decoded : Literal.decode kind text = .ok (some value)) :
    value.kind = kind ∧ value ≠ .uninitialized ∧ (kind = .string → value = .string text) := by
  cases kind with
  | int =>
    obtain ⟨n?, _, given⟩ := Chain.map_eq_ok.mp decoded
    obtain ⟨n, _, rfl⟩ := Option.map_eq_some_iff.mp given
    exact ⟨rfl, nofun, nofun⟩
  | float =>
    obtain ⟨x?, _, given⟩ := Chain.map_eq_ok.mp decoded
    obtain ⟨x, _, rfl⟩ := Option.map_eq_some_iff.mp given
    exact ⟨rfl, nofun, nofun⟩
  | bool =>
    obtain ⟨b, _, rfl⟩ := Option.map_eq_some_iff.mp (Except.ok.inj decoded)
    exact ⟨rfl, nofun, nofun⟩
  | string =>
    cases decoded
    exact ⟨rfl, nofun, fun _ => rfl⟩
  | nil =>
    simp only [Literal.decode, Except.ok.injEq] at decoded
    split at decoded
    · cases decoded
      exact ⟨rfl, nofun, nofun⟩
    · cases decoded

/-- A text among the arguments is the content of a variable or the operand's own. -/
theorem text_of_lookUp {action : Action}
    (found : action.lookUp frames operand = .ok (.string text)) :
    text = operand.text ∨ ∃ ref, frames.get ref = .ok (.string text) := by
  have ofContent (found : frames.content operand = .ok (.string text)) :
      text = operand.text ∨ ∃ ref, frames.get ref = .ok (.string text) := by
    rcases content_eq_ok found with ⟨ref, _, _, found⟩ | ⟨kind, _, decoded⟩
    · exact Or.inr ⟨ref, found⟩
    · obtain ⟨isString, _, same⟩ := decode_eq_some decoded
      exact Or.inl (Value.string.inj (same isString.symm))
  unfold Action.lookUp at found
  split at found
  · cases found
    exact Or.inl rfl
  · exact ofContent found
  · exact ofContent (value_eq_ok.mp found).1

end IPPcode24
