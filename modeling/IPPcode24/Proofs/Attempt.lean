import IPPcode24.Machine.Plan

/-!
# Chains of attempts

A chain of attempts succeeds exactly when all of its links do, and otherwise fails
as its first failing link does. Attempts made for each element of a list fail at
the first element that fails.
-/

namespace IPPcode24

namespace Chain

variable {ε α β : Type}

theorem bind_eq_ok {first : Except ε α} {next : α → Except ε β} {b : β} :
    first >>= next = .ok b ↔ ∃ a, first = .ok a ∧ next a = .ok b := by
  cases first with
  | ok a => simp [bind, Except.bind]
  | error failure => simp [bind, Except.bind]

theorem bind_eq_error {first : Except ε α} {next : α → Except ε β} {failure : ε} :
    first >>= next = .error failure ↔
      first = .error failure ∨ ∃ a, first = .ok a ∧ next a = .error failure := by
  cases first with
  | ok a => simp [bind, Except.bind]
  | error other => simp [bind, Except.bind]

@[simp] theorem bind_ok (a : α) (next : α → Except ε β) :
    (Except.ok a : Except ε α) >>= next = next a := rfl

@[simp] theorem bind_error (failure : ε) (next : α → Except ε β) :
    (Except.error failure : Except ε α) >>= next = .error failure := rfl

@[simp] theorem bind_ok_self (attempt : Except ε α) : attempt >>= Except.ok = attempt := by
  cases attempt <;> rfl

@[simp] theorem pure_eq_ok (a : α) : (pure a : Except ε α) = .ok a := rfl

theorem map_eq_ok {first : Except ε α} {f : α → β} {b : β} :
    first.map f = .ok b ↔ ∃ a, first = .ok a ∧ f a = b := by
  cases first with
  | ok a => simp [Except.map]
  | error failure => simp [Except.map]

theorem map_eq_error {first : Except ε α} {f : α → β} {failure : ε} :
    first.map f = .error failure ↔ first = .error failure := by
  cases first with
  | ok a => simp [Except.map]
  | error other => simp [Except.map]

theorem mapError_eq_ok {first : Except ε α} {f : ε → β} {a : α} :
    first.mapError f = .ok a ↔ first = .ok a := by
  cases first with
  | ok b =>
    have same : (Except.ok b : Except ε α).mapError f = .ok b := rfl
    rw [same, Except.ok.injEq, Except.ok.injEq]
  | error other =>
    have same : (Except.error other : Except ε α).mapError f = .error (f other) := rfl
    simp [same]

theorem mapError_eq_error {first : Except ε α} {f : ε → β} {failure : β} :
    first.mapError f = .error failure ↔ ∃ error, first = .error error ∧ f error = failure := by
  cases first with
  | ok b =>
    have same : (Except.ok b : Except ε α).mapError f = .ok b := rfl
    simp [same]
  | error other =>
    have same : (Except.error other : Except ε α).mapError f = .error (f other) := rfl
    simp [same]

/-- Everything that a list of attempts gave comes from one of its elements. -/
theorem mem_of_mapM_eq_ok {attempt : α → Except ε β} {elements : List α} {results : List β}
    (succeeded : elements.mapM attempt = .ok results) :
    ∀ result ∈ results, ∃ element ∈ elements, attempt element = .ok result := by
  induction elements generalizing results with
  | nil =>
    rw [List.mapM_nil, pure_eq_ok, Except.ok.injEq] at succeeded
    simp [← succeeded]
  | cons element rest ih =>
    simp only [List.mapM_cons, bind_eq_ok, pure_eq_ok, Except.ok.injEq] at succeeded
    obtain ⟨first, hfirst, others, hothers, rfl⟩ := succeeded
    intro result member
    rcases List.mem_cons.mp member with rfl | member
    · exact ⟨element, List.mem_cons_self, hfirst⟩
    · obtain ⟨other, hother, hresult⟩ := ih hothers result member
      exact ⟨other, List.mem_cons_of_mem _ hother, hresult⟩

/-- A list of attempts fails as its first failing element does. -/
theorem mapM_eq_error {attempt : α → Except ε β} {elements : List α} {failure : ε} :
    elements.mapM attempt = .error failure ↔
      ∃ before element after, elements = before ++ element :: after ∧
        (∀ earlier ∈ before, ∃ result, attempt earlier = .ok result) ∧
        attempt element = .error failure := by
  induction elements with
  | nil => simp
  | cons first rest ih =>
    simp only [List.mapM_cons, bind_eq_error, pure_eq_ok, reduceCtorEq, and_false, exists_false,
      or_false]
    constructor
    · rintro (failed | ⟨result, hfirst, failed⟩)
      · exact ⟨[], first, rest, rfl, by simp, failed⟩
      · obtain ⟨before, element, after, rfl, earlier, failed⟩ := ih.mp failed
        refine ⟨first :: before, element, after, rfl, ?_, failed⟩
        intro other member
        rcases List.mem_cons.mp member with rfl | member
        · exact ⟨result, hfirst⟩
        · exact earlier other member
    · rintro ⟨before, element, after, split, earlier, failed⟩
      cases before with
      | nil =>
        obtain ⟨rfl, rfl⟩ := List.cons.inj split
        exact Or.inl failed
      | cons other before =>
        obtain ⟨rfl, rfl⟩ := List.cons.inj split
        obtain ⟨result, hfirst⟩ := earlier first List.mem_cons_self
        refine Or.inr ⟨result, hfirst, ih.mpr ⟨before, element, after, rfl, ?_, failed⟩⟩
        exact fun other member => earlier other (List.mem_cons_of_mem _ member)

end Chain

section Embedding

variable {ε α : Type}

@[simp] theorem orError_ok (a : α) : orError (.ok a : Except ε α) = .ok a := rfl

@[simp] theorem orError_error (error : ε) :
    orError (.error error : Except ε α) = .error (.error error) := rfl

theorem orError_eq_ok {attempt : Except ε α} {a : α} :
    orError attempt = .ok a ↔ attempt = .ok a := by
  cases attempt with
  | ok b => simp
  | error error => simp

theorem orError_eq_error {attempt : Except ε α} {failure : Failure ε} :
    orError attempt = .error failure ↔
      ∃ error, attempt = .error error ∧ failure = .error error := by
  cases attempt with
  | ok b => simp
  | error error => simp [eq_comm]

theorem orCrash_eq_ok {attempt : Except Crash α} {a : α} :
    (orCrash attempt : Except (Failure ε) α) = .ok a ↔ attempt = .ok a := by
  cases attempt with
  | ok b => simp [orCrash]
  | error crash => simp [orCrash]

theorem orCrash_eq_error {attempt : Except Crash α} {failure : Failure ε} :
    orCrash attempt = .error failure ↔
      ∃ crash, attempt = .error crash ∧ failure = .crash crash := by
  cases attempt with
  | ok b => simp [orCrash]
  | error crash => simp [orCrash, eq_comm]

end Embedding

end IPPcode24
