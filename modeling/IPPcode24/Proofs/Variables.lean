import IPPcode24.Frames

/-!
# Variables

A declaration adds a variable to a frame, and an assignment replaces the content of one
that is declared. Neither touches another variable of the frame or another frame, and both
are refused when the frame or the variable is not as they need it.
-/

namespace IPPcode24

section Contents

variable {frame : Frame} {name : Text}

theorem Frame.get?_cons (first : Text) (content : Value) (rest : Frame) (other : Text) :
    Frame.get? ((first, content) :: rest) other =
      if other = first then some content else rest.get? other := by
  by_cases same : other = first
  · simp [get?, same]
  · have apart : (other == first) = false := beq_false_of_ne same
    simp [get?, List.lookup_cons, same, apart]

/-- A new variable has no value, and the others keep theirs. -/
theorem Frame.get?_declare (fresh : frame.get? name = none) (other : Text) :
    (frame.declare name).get? other =
      if other = name then some .uninitialized else frame.get? other := by
  have appended : (frame.declare name).get? other =
      (frame.get? other).or (Frame.get? [(name, .uninitialized)] other) := List.lookup_append
  rw [appended, get?_cons]
  by_cases same : other = name
  · rw [same, fresh]
    rfl
  · rw [if_neg same, if_neg same]
    exact Option.or_none

/-- A declared variable has the value that it was given, and the others keep theirs. -/
theorem Frame.get?_assign (declared : (frame.get? name).isSome) (value : Value) (other : Text) :
    (frame.assign name value).get? other =
      if other = name then some value else frame.get? other := by
  induction frame with
  | nil => cases declared
  | cons entry rest ih =>
    obtain ⟨first, content⟩ := entry
    rw [get?_cons] at declared
    rw [assign, get?_cons]
    by_cases found : first = name
    · rw [if_pos found, get?_cons, found]
      by_cases same : other = name
      · rw [if_pos same, if_pos same]
      · rw [if_neg same, if_neg same, if_neg same]
    · rw [if_neg (Ne.symm found)] at declared
      rw [if_neg found, get?_cons, ih declared]
      by_cases same : other = first
      · rw [if_pos same, if_pos same, if_neg (same ▸ found)]
      · rw [if_neg same, if_neg same]

end Contents

namespace Frames

variable {frames next : Frames} {frame : Frame} {ref : Variable}

/-- No operation on variables finds a frame that is not there. -/
theorem missing_of_no_frame (absent : frames.frame? ref.tag = none) (value : Value) :
    frames.define ref = .error (.missing ref.tag) ∧
      frames.set ref value = .error (.missing ref.tag) ∧
      frames.get ref = .error (.missing ref.tag) := by
  simp only [define, set, get, absent, and_self]

theorem undefined_of_fresh (present : frames.frame? ref.tag = some frame)
    (fresh : frame.get? ref.name = none) (value : Value) :
    frames.define ref = .ok (frames.replace (frame.declare ref.name) ref.tag) ∧
      frames.set ref value = .error (.undefined ref) ∧
      frames.get ref = .error (.undefined ref) := by
  simp [define, set, get, present, fresh]

theorem redefined_of_declared {content : Value} (present : frames.frame? ref.tag = some frame)
    (declared : frame.get? ref.name = some content) (value : Value) :
    frames.define ref = .error (.redefined ref) ∧
      frames.set ref value = .ok (frames.replace (frame.assign ref.name value) ref.tag) ∧
      frames.get ref = .ok content := by
  simp [define, set, get, present, declared]

theorem exists_set_of_get {content : Value} (found : frames.get ref = .ok content)
    (value : Value) : ∃ changed, frames.set ref value = .ok changed := by
  simp only [get, set] at found ⊢
  split at found
  · cases found
  · split at found
    · cases found
    · rename_i declared
      exact ⟨_, by rw [declared]; rfl⟩

theorem frame?_replace (frames : Frames) (new : Frame) (own tag : FrameTag) :
    (frames.replace new own).frame? tag = if tag = own then some new else frames.frame? tag := by
  cases own <;> cases tag <;> rfl

theorem define_eq_ok (defined : frames.define ref = .ok next) :
    ∃ frame, frames.frame? ref.tag = some frame ∧ frame.get? ref.name = none ∧
      next = frames.replace (frame.declare ref.name) ref.tag := by
  rw [define] at defined
  split at defined
  · cases defined
  · rename_i frame present
    split at defined
    · cases defined
    · rename_i fresh
      exact ⟨frame, present, Option.not_isSome_iff_eq_none.mp fresh,
        (Except.ok.inj defined).symm⟩

theorem set_eq_ok {value : Value} (assigned : frames.set ref value = .ok next) :
    ∃ frame, frames.frame? ref.tag = some frame ∧ (frame.get? ref.name).isSome ∧
      next = frames.replace (frame.assign ref.name value) ref.tag := by
  rw [set] at assigned
  split at assigned
  · cases assigned
  · rename_i frame present
    split at assigned
    · exact ⟨frame, present, ‹_›, (Except.ok.inj assigned).symm⟩
    · cases assigned

/-- After an assignment the variable has the value, and the others what they had. -/
theorem get_of_set {value : Value} (assigned : frames.set ref value = .ok next)
    (other : Variable) : next.get other = if other = ref then .ok value else frames.get other := by
  obtain ⟨frame, present, declared, rfl⟩ := set_eq_ok assigned
  rw [get, frame?_replace]
  by_cases sameTag : other.tag = ref.tag
  · rw [if_pos sameTag]
    simp only [Frame.get?_assign declared, get, sameTag, present]
    by_cases sameName : other.name = ref.name
    · have same : other = ref := by
        obtain ⟨tag, name⟩ := other
        obtain rfl := sameTag
        obtain rfl := sameName
        rfl
      rw [if_pos sameName, if_pos same]
    · rw [if_neg sameName, if_neg fun same => sameName (congrArg Variable.name same)]
  · rw [if_neg sameTag, if_neg fun same => sameTag (congrArg Variable.tag same), get]

/-- A push moves the temporary frame onto the stack, and a pop moves it back. -/
theorem push_eq_ok (pushed : frames.push = .ok next) :
    (∃ frame, next.locals = frame :: frames.locals) ∧ next.pop = .ok frames := by
  rw [push] at pushed
  split at pushed
  · cases pushed
  · rename_i frame present
    cases pushed
    have restored : { frames with temporary := some frame } = frames := by rw [← present]
    exact ⟨⟨frame, rfl⟩, congrArg Except.ok restored⟩

theorem pop_eq_ok (popped : frames.pop = .ok next) :
    ∃ frame, frames.locals = frame :: next.locals := by
  rw [pop] at popped
  split at popped
  · cases popped
  · rename_i frame rest stacked
    cases popped
    exact ⟨frame, stacked⟩

end Frames

end IPPcode24
