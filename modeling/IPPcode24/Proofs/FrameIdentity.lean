import IPPcode24.Proofs.FrameHistories

/-!
# The identity of frames

The frames are what their history says. A variable has the value that it was given last in
the same frame, whatever the frame was called at that time, and a frame that is overwritten
does not come back. The invariant lets each number stand for a frame, so that rewriting the
frame in a place is rewriting the frame with the number that is there.
-/

namespace IPPcode24

namespace History

/-- The operation puts another frame in the place of the temporary frame with this number. -/
def Overwrites (history : History) (operation : FrameOperation) (number : Nat) : Prop :=
  history.placement.temporary = some number ∧
    (operation = .create ∨ operation = .pop ∧ history.placement.locals ≠ [])

/-- The frames are what their history says: no frame is in two places, a frame is moved if it
is there, and the operations find the variables of the frame in a place as that frame was
left. -/
structure Recalled (history : History) : Prop where
  distinct : (0 :: history.placement.held).Nodup
  available : ∀ tag : FrameTag,
    (history.frames.frame? tag).isSome = (history.placement.number? tag).isSome
  pushes : (∃ next, history.frames.push = .ok next) ↔ history.placement.temporary ≠ none
  pops : (∃ next, history.frames.pop = .ok next) ↔ history.placement.locals ≠ []
  absent : ∀ (ref : Variable) (value : Value), history.placement.number? ref.tag = none →
    history.frames.define ref = .error (.missing ref.tag) ∧
    history.frames.set ref value = .error (.missing ref.tag) ∧
    history.frames.get ref = .error (.missing ref.tag)
  undeclared : ∀ (ref : Variable) (value : Value) (number : Nat),
    history.placement.number? ref.tag = some number → .defined number ref.name ∉ history.deeds →
    (∃ next, history.frames.define ref = .ok next) ∧
    history.frames.set ref value = .error (.undefined ref) ∧
    history.frames.get ref = .error (.undefined ref)
  declared : ∀ (ref : Variable) (value : Value) (number : Nat),
    history.placement.number? ref.tag = some number → .defined number ref.name ∈ history.deeds →
    history.frames.define ref = .error (.redefined ref) ∧
    (∃ next, history.frames.set ref value = .ok next) ∧
    history.frames.get ref =
      .ok ((lastValue? history.deeds number ref.name).getD .uninitialized)

/-- Each number stands for a frame, and these frames have made the frames and contain what
the deeds say. -/
structure Faithful (history : History) (heap : Nat → Frame) : Prop where
  proper : history.placement.Proper
  places : history.frames = history.placement.frames heap
  contents : ∀ number name, (heap number).get? name = content? history.deeds number name
  ordered : ∀ number name value, .assigned number name value ∈ history.deeds →
    .defined number name ∈ history.deeds
  blank : ∀ number, history.placement.created < number → heap number = []

section Operations

variable {history : History} {heap : Nat → Frame} {number : Nat}

theorem after_of_error (operation : FrameOperation) {error : FrameError}
    (failed : history.frames.apply operation = .error error) :
    history.after operation = history := by
  rw [after, failed]

theorem after_of_ok (operation : FrameOperation) {frames : Frames}
    (applied : history.frames.apply operation = .ok frames) :
    history.after operation = ⟨frames, history.placement.after operation,
      operation.deeds history.placement ++ history.deeds⟩ := by
  rw [after, applied]

theorem Faithful.after_of_error (faithful : history.Faithful heap) (operation : FrameOperation)
    {error : FrameError} (failed : history.frames.apply operation = .error error) :
    ∃ heap, (history.after operation).Faithful heap :=
  ⟨heap, by rwa [History.after_of_error operation failed]⟩

theorem Faithful.frame?_eq (faithful : history.Faithful heap) (tag : FrameTag) :
    history.frames.frame? tag = (history.placement.number? tag).map heap := by
  rw [faithful.places, Placement.frame?_frames]

theorem Faithful.present (faithful : history.Faithful heap) {tag : FrameTag}
    (found : history.placement.number? tag = some number) :
    history.frames.frame? tag = some (heap number) := by
  rw [faithful.frame?_eq, found, Option.map_some]

theorem Faithful.absent (faithful : history.Faithful heap) {tag : FrameTag}
    (missing : history.placement.number? tag = none) : history.frames.frame? tag = none := by
  rw [faithful.frame?_eq, missing, Option.map_none]

/-- Rewriting one variable in one place is a deed on the frame with the number there. -/
theorem Faithful.rewrite (faithful : history.Faithful heap) {tag : FrameTag} {frame : Frame}
    {deed : Deed} (found : history.placement.number? tag = some number)
    (contents : ∀ other name, (Function.update heap number frame other).get? name =
      content? (deed :: history.deeds) other name)
    (ordered : ∀ other name value, .assigned other name value ∈ deed :: history.deeds →
      .defined other name ∈ deed :: history.deeds) :
    Faithful ⟨history.frames.replace frame tag, history.placement, deed :: history.deeds⟩
      (Function.update heap number frame) where
  proper := faithful.proper
  places := by rw [faithful.places, Placement.replace_frames faithful.proper found]
  contents := contents
  ordered := ordered
  blank := by
    intro other new
    have old := faithful.proper.number_le found
    have apart : other ≠ number := by
      have beyond : history.placement.created < other := new
      omega
    rw [Function.update_of_ne apart]
    exact faithful.blank other new

theorem Faithful.after_define (faithful : history.Faithful heap) (ref : Variable) :
    ∃ heap, (history.after (.define ref)).Faithful heap := by
  cases found : history.placement.number? ref.tag with
  | none =>
    have refused := (Frames.missing_of_no_frame (faithful.absent found) .nil).1
    exact faithful.after_of_error (.define ref) refused
  | some number =>
    have present := faithful.present found
    cases content : (heap number).get? ref.name with
    | some value =>
      have refused := (Frames.redefined_of_declared present content .nil).1
      exact faithful.after_of_error (.define ref) refused
    | none =>
      have defined := (Frames.undefined_of_fresh present content .nil).1
      have fresh : .defined number ref.name ∉ history.deeds := by
        rw [faithful.contents, content?] at content
        simpa using content
      have unassigned (value : Value) : .assigned number ref.name value ∉ history.deeds :=
        fun assigned => fresh (faithful.ordered _ _ _ assigned)
      have deeds : (FrameOperation.define ref).deeds history.placement =
          [.defined number ref.name] := by simp [FrameOperation.deeds, found]
      refine ⟨Function.update heap number ((heap number).declare ref.name), ?_⟩
      rw [after_of_ok (.define ref) defined, deeds]
      refine faithful.rewrite found ?_ ?_
      · intro other name
        rw [get?_update (Frame.get?_declare content), faithful.contents,
          content?_defined unassigned]
      · intro other name value member
        rcases List.mem_cons.mp member with impossible | member
        · cases impossible
        · exact List.mem_cons_of_mem _ (faithful.ordered other name value member)

theorem Faithful.after_set (faithful : history.Faithful heap) (ref : Variable) (value : Value) :
    ∃ heap, (history.after (.set ref value)).Faithful heap := by
  cases found : history.placement.number? ref.tag with
  | none =>
    have refused := (Frames.missing_of_no_frame (faithful.absent found) value).2.1
    exact faithful.after_of_error (.set ref value) refused
  | some number =>
    have present := faithful.present found
    cases content : (heap number).get? ref.name with
    | none =>
      have refused := (Frames.undefined_of_fresh present content value).2.1
      exact faithful.after_of_error (.set ref value) refused
    | some before =>
      have assigned := (Frames.redefined_of_declared present content value).2.1
      have declared : .defined number ref.name ∈ history.deeds := by
        by_contra fresh
        rw [faithful.contents, content?, if_neg fresh] at content
        cases content
      have known : ((heap number).get? ref.name).isSome := by rw [content]; rfl
      have deeds : (FrameOperation.set ref value).deeds history.placement =
          [.assigned number ref.name value] := by simp [FrameOperation.deeds, found]
      refine ⟨Function.update heap number ((heap number).assign ref.name value), ?_⟩
      rw [after_of_ok (.set ref value) assigned, deeds]
      refine faithful.rewrite found ?_ ?_
      · intro other name
        rw [get?_update (Frame.get?_assign known value), faithful.contents,
          content?_assigned declared]
      · intro other name last member
        rcases List.mem_cons.mp member with same | member
        · cases same
          exact List.mem_cons_of_mem _ declared
        · exact List.mem_cons_of_mem _ (faithful.ordered other name last member)

/-- An operation without deeds moves frames or makes a blank one. -/
theorem Faithful.after_moving (faithful : history.Faithful heap) (operation : FrameOperation)
    {frames : Frames} (applied : history.frames.apply operation = .ok frames)
    (idle : operation.deeds history.placement = [])
    (places : frames = (history.placement.after operation).frames heap) :
    ∃ heap, (history.after operation).Faithful heap := by
  refine ⟨heap, ?_⟩
  rw [after_of_ok operation applied, idle]
  refine ⟨faithful.proper.after operation, places, faithful.contents, faithful.ordered, ?_⟩
  intro number new
  exact faithful.blank number
    (Nat.lt_of_le_of_lt (Placement.created_le_after operation) new)

theorem Faithful.after_get (faithful : history.Faithful heap) (ref : Variable) :
    ∃ heap, (history.after (.get ref)).Faithful heap := by
  cases given : history.frames.get ref with
  | error error =>
    have failed : history.frames.apply (.get ref) = .error error := by rw [Frames.apply, given]; rfl
    exact faithful.after_of_error (.get ref) failed
  | ok value =>
    have applied : history.frames.apply (.get ref) = .ok history.frames := by
      rw [Frames.apply, given]
      rfl
    exact faithful.after_moving (.get ref) applied rfl faithful.places

theorem Faithful.after_create (faithful : history.Faithful heap) :
    ∃ heap, (history.after .create).Faithful heap := by
  refine faithful.after_moving .create rfl rfl ?_
  have blank : heap (history.placement.created + 1) = [] :=
    faithful.blank _ (Nat.lt_succ_self _)
  rw [Placement.after, Placement.frames, Option.map_some, blank, faithful.places]
  rfl

theorem Faithful.push_eq (faithful : history.Faithful heap) :
    history.frames.push =
      if history.placement.temporary = none then .error (.missing .tf)
      else .ok ((history.placement.after .push).frames heap) := by
  rw [faithful.places]
  cases given : history.placement.temporary with
  | none => simp only [Frames.push, Placement.frames, given, Option.map_none, if_pos]
  | some number =>
    rw [if_neg (Option.some_ne_none number)]
    simp only [Frames.push, Placement.frames, Placement.after, Placement.held, given,
      Option.map_some, Option.map_none, Option.toList_some, List.cons_append, List.nil_append,
      List.map_cons]

theorem Faithful.pop_eq (faithful : history.Faithful heap) :
    history.frames.pop =
      if history.placement.locals = [] then .error (.missing .lf)
      else .ok ((history.placement.after .pop).frames heap) := by
  rw [faithful.places]
  cases given : history.placement.locals with
  | nil => simp only [Frames.pop, Placement.frames, given, List.map_nil, if_pos]
  | cons number rest =>
    rw [if_neg (List.cons_ne_nil number rest)]
    simp only [Frames.pop, Placement.frames, Placement.after, given, List.head?_cons,
      List.tail_cons, Option.map_some, List.map_cons]

theorem Faithful.after_push (faithful : history.Faithful heap) :
    ∃ heap, (history.after .push).Faithful heap := by
  have pushed := faithful.push_eq
  by_cases missing : history.placement.temporary = none
  · rw [if_pos missing] at pushed
    exact faithful.after_of_error .push pushed
  · rw [if_neg missing] at pushed
    exact faithful.after_moving .push pushed rfl rfl

theorem Faithful.after_pop (faithful : history.Faithful heap) :
    ∃ heap, (history.after .pop).Faithful heap := by
  have popped := faithful.pop_eq
  by_cases missing : history.placement.locals = []
  · rw [if_pos missing] at popped
    exact faithful.after_of_error .pop popped
  · rw [if_neg missing] at popped
    exact faithful.after_moving .pop popped rfl rfl

theorem Faithful.after (faithful : history.Faithful heap) (operation : FrameOperation) :
    ∃ heap, (history.after operation).Faithful heap := by
  cases operation with
  | define ref => exact faithful.after_define ref
  | set ref value => exact faithful.after_set ref value
  | get ref => exact faithful.after_get ref
  | create => exact faithful.after_create
  | push => exact faithful.after_push
  | pop => exact faithful.after_pop

theorem faithful_start : start.Faithful fun _ => [] where
  proper := ⟨by decide, nofun⟩
  places := rfl
  contents := fun _ _ => rfl
  ordered := nofun
  blank := fun _ _ => rfl

theorem exists_faithful (operations : List FrameOperation) :
    ∃ heap, (of operations).Faithful heap := by
  suffices onward : ∀ (history : History) (heap : Nat → Frame), history.Faithful heap →
      ∃ heap, (operations.foldl History.after history).Faithful heap from
    onward start _ faithful_start
  induction operations with
  | nil => exact fun history heap faithful => ⟨heap, faithful⟩
  | cons operation rest ih =>
    intro history heap faithful
    obtain ⟨next, faithful⟩ := faithful.after operation
    exact ih (history.after operation) next faithful

theorem Faithful.recalled (faithful : history.Faithful heap) : history.Recalled where
  distinct := faithful.proper.distinct
  available := by
    intro tag
    rw [faithful.frame?_eq, Option.isSome_map]
  pushes := by
    rw [faithful.push_eq]
    by_cases missing : history.placement.temporary = none <;> simp [missing]
  pops := by
    rw [faithful.pop_eq]
    by_cases missing : history.placement.locals = [] <;> simp [missing]
  absent := by
    intro ref value missing
    exact Frames.missing_of_no_frame (faithful.absent missing) value
  undeclared := by
    intro ref value number found fresh
    have content : (heap number).get? ref.name = none := by
      rw [faithful.contents, content?, if_neg fresh]
    obtain ⟨defined, notSet, notRead⟩ :=
      Frames.undefined_of_fresh (faithful.present found) content value
    exact ⟨⟨_, defined⟩, notSet, notRead⟩
  declared := by
    intro ref value number found declared
    have content : (heap number).get? ref.name =
        some ((lastValue? history.deeds number ref.name).getD .uninitialized) := by
      rw [faithful.contents, content?, if_pos declared]
    obtain ⟨notDefined, assigned, read⟩ :=
      Frames.redefined_of_declared (faithful.present found) content value
    exact ⟨notDefined, ⟨_, assigned⟩, read⟩

end Operations

/-! ## Frames that are lost -/

section Lost

variable {history : History} {number : Nat}

/-- A frame with this number has been made and is in no place. -/
structure Lost (history : History) (number : Nat) : Prop where
  made : number ≤ history.placement.created
  gone : number ∉ history.placement.held

theorem Lost.after (lost : history.Lost number) (operation : FrameOperation) :
    (history.after operation).Lost number := by
  cases applied : history.frames.apply operation with
  | error error => rwa [after_of_error operation applied]
  | ok frames =>
    rw [after_of_ok operation applied]
    refine ⟨Nat.le_trans lost.made (Placement.created_le_after operation), ?_⟩
    intro held
    rcases Placement.mem_held_after held with before | ⟨_, rfl⟩
    · exact lost.gone before
    · exact absurd lost.made (Nat.not_succ_le_self _)

theorem Lost.foldl (lost : history.Lost number) (operations : List FrameOperation) :
    (operations.foldl History.after history).Lost number := by
  induction operations generalizing history with
  | nil => exact lost
  | cons operation rest ih => exact ih (lost.after operation)

/-- A frame that is overwritten is lost. -/
theorem Faithful.lost_of_overwrites {heap : Nat → Frame} (faithful : history.Faithful heap)
    {operation : FrameOperation} (overwrites : history.Overwrites operation number) :
    (history.after operation).Lost number := by
  obtain ⟨given, replaced⟩ := overwrites
  have made := faithful.proper.numbered number (Placement.mem_held_of_temporary given)
  have notStacked := faithful.proper.not_stacked given
  rcases replaced with rfl | ⟨rfl, stacked⟩
  · rw [after_of_ok .create rfl]
    refine ⟨Nat.le_succ_of_le made, ?_⟩
    intro held
    rcases List.mem_cons.mp held with rfl | below
    · exact absurd made (Nat.not_succ_le_self _)
    · exact notStacked below
  · have popped := faithful.pop_eq
    rw [if_neg stacked] at popped
    rw [after_of_ok .pop popped]
    refine ⟨made, ?_⟩
    change number ∉ (history.placement.after .pop).held
    rw [Placement.held_pop]
    exact notStacked

end Lost

end History

/-- Whatever is done to fresh frames, and in whatever order: no frame is in two places, every
variable contains what it was given last in the frame that is now in its place, no variable is
declared twice in a frame, nothing is found in a frame that is not there, and a temporary frame
that another frame takes the place of never comes back. -/
theorem frames_recall_history (operations : List FrameOperation) :
    (History.of operations).Recalled ∧
      ∀ (operation : FrameOperation) (number : Nat) (later : List FrameOperation),
        (History.of operations).Overwrites operation number →
          number ∉ (History.of (operations ++ operation :: later)).placement.held := by
  obtain ⟨heap, faithful⟩ := History.exists_faithful operations
  refine ⟨faithful.recalled, ?_⟩
  intro operation number later overwrites
  have lost := (faithful.lost_of_overwrites overwrites).foldl later
  have onward : History.of (operations ++ operation :: later) =
      later.foldl History.after ((History.of operations).after operation) := by
    simp only [History.of, List.foldl_append, List.foldl_cons]
  rw [onward]
  exact lost.gone

/-- Operations that hide a variable with a value behind one of the same name. -/
def shadowingOperations : List FrameOperation :=
  [.create, .define ⟨.tf, ['x']⟩, .set ⟨.tf, ['x']⟩ (.int 5), .push, .create,
    .define ⟨.tf, ['x']⟩]

/-- A pop loses the second frame, and the value in the first one comes to light. -/
theorem hidden_value_comes_to_light :
    (History.of shadowingOperations).Overwrites .pop 2 ∧
    2 ∉ (History.of (shadowingOperations ++ [.pop, .push, .create])).placement.held ∧
    (History.of shadowingOperations).frames.get ⟨.tf, ['x']⟩ = .ok .uninitialized ∧
    (History.of (shadowingOperations ++ [.pop])).placement.number? .tf = some 1 ∧
    (History.of (shadowingOperations ++ [.pop])).frames.get ⟨.tf, ['x']⟩ = .ok (.int 5) := by
  obtain ⟨before, lost⟩ := frames_recall_history shadowingOperations
  obtain ⟨recalled, _⟩ := frames_recall_history (shadowingOperations ++ [.pop])
  have overwrites : (History.of shadowingOperations).Overwrites .pop 2 := by
    refine ⟨by decide, Or.inr ⟨rfl, by decide⟩⟩
  have found : (History.of (shadowingOperations ++ [.pop])).placement.number? .tf = some 1 := by
    decide
  obtain ⟨_, _, blank⟩ := before.declared ⟨.tf, ['x']⟩ .nil 2 (by decide) (by decide)
  obtain ⟨_, _, read⟩ := recalled.declared ⟨.tf, ['x']⟩ .nil 1 found (by decide)
  exact ⟨overwrites, lost .pop 2 [.push, .create] overwrites, blank, found, read⟩

end IPPcode24
