import IPPcode24.Proofs.LocalFrames

/-!
# Effects on variables

An instruction that succeeds declares one variable, or moves whole frames, or gives a value to
the variable that its first operand names. A frame is followed by the place where it stands,
which only the instructions for frames change. So a variable that has been assigned keeps a
value for as long as its frame exists.
-/

namespace IPPcode24

/-! ## Places of frames -/

/-- Where a frame stands: as the global one, as the temporary one, or on the stack of local
frames, at a height from the bottom. -/
inductive Seat where
  | globals
  | temporary
  | locals (height : Nat)
deriving DecidableEq

namespace Frames

def at? (frames : Frames) : Seat → Option Frame
  | .globals => some frames.globals
  | .temporary => frames.temporary
  | .locals height => frames.locals.reverse[height]?

def holds? (frames : Frames) (seat : Seat) (name : Text) : Option Value :=
  (frames.at? seat).bind fun frame => frame.get? name

/-- Where the frame stands that a tag stands for. -/
def seat (frames : Frames) : FrameTag → Seat
  | .gf => .globals
  | .tf => .temporary
  | .lf => .locals (frames.locals.length - 1)

end Frames

/-- Where a frame stands after an instruction that succeeds, if the frame still exists. The
height is that of the stack before. -/
def Seat.after (opcode : Opcode) (height : Nat) (seat : Seat) : Option Seat :=
  match opcode, seat with
  | .createFrame, .temporary => none
  | .pushFrame, .temporary => some (.locals height)
  | .popFrame, .temporary => none
  | .popFrame, .locals place => some (if place + 1 = height then .temporary else .locals place)
  | _, seat => some seat

/-! ## Effects -/

/-- The same frames exist, and the variables contain what they contained, but for one of them
that contains the value. -/
structure Frames.Changes (before after : Frames) (ref : Variable) (value : Value) : Prop where
  present : (before.at? (before.seat ref.tag)).isSome
  existing : ∀ seat, (after.at? seat).isSome = (before.at? seat).isSome
  contents : ∀ seat name, after.holds? seat name =
    if seat = before.seat ref.tag ∧ name = ref.name then some value else before.holds? seat name

def Opcode.framing : List Opcode := [.defVar, .createFrame, .pushFrame, .popFrame]

def Names (operands : List Operand) (ref : Variable) : Prop :=
  ∃ operand, operands[0]? = some operand ∧ Variable.ofSource? operand.text = some ref

/-- What an instruction that succeeds does to the variables. -/
inductive VariableEffect (operands : List Operand) (before : Frames) :
    Opcode → Frames → Prop where
  | declares {after : Frames} {ref : Variable} (named : Names operands ref)
      (fresh : before.holds? (before.seat ref.tag) ref.name = none)
      (changes : before.Changes after ref .uninitialized) :
      VariableEffect operands before .defVar after
  | creates : VariableEffect operands before .createFrame { before with temporary := some [] }
  | pushes {frame : Frame} (present : before.temporary = some frame) :
      VariableEffect operands before .pushFrame
        { before with temporary := none, locals := frame :: before.locals }
  | pops {frame : Frame} {rest : List Frame} (stacked : before.locals = frame :: rest) :
      VariableEffect operands before .popFrame
        { before with temporary := some frame, locals := rest }
  | keeps {opcode : Opcode} (other : opcode ∉ Opcode.framing) :
      VariableEffect operands before opcode before
  | assigns {opcode : Opcode} {after : Frames} {ref : Variable} {value : Value}
      (other : opcode ∉ Opcode.framing) (named : Names operands ref)
      (declared : (before.holds? (before.seat ref.tag) ref.name).isSome)
      (initialized : value ≠ .uninitialized) (changes : before.Changes after ref value) :
      VariableEffect operands before opcode after

section Places

variable {frames next : Frames} {frame : Frame} {ref : Variable}

theorem getElem?_reverse_cons {α : Type} (top : α) (rest : List α) (height : Nat) :
    (top :: rest).reverse[height]? =
      if height = rest.length then some top else rest.reverse[height]? := by
  rw [List.reverse_cons, List.getElem?_append, List.length_reverse]
  rcases Nat.lt_trichotomy height rest.length with below | rfl | above
  · rw [if_pos below, if_neg (Nat.ne_of_lt below)]
  · simp
  · have beyond : rest.reverse[height]? = none := by
      rw [List.getElem?_eq_none_iff, List.length_reverse]
      exact Nat.le_of_lt above
    have past : height - rest.length ≠ 0 := Nat.sub_ne_zero_of_lt above
    rw [if_neg (Nat.not_lt_of_gt above), if_neg (Nat.ne_of_gt above), beyond]
    simpa using past

theorem Frames.at?_seat (frames : Frames) (tag : FrameTag) :
    frames.at? (frames.seat tag) = frames.frame? tag := by
  cases tag with
  | gf | tf => rfl
  | lf =>
    obtain ⟨globals, temporary, locals⟩ := frames
    cases locals with
    | nil => rfl
    | cons top rest => exact (getElem?_reverse_cons top rest rest.length).trans (if_pos rfl)

theorem Frames.at?_replace {tag : FrameTag} (present : frames.frame? tag = some frame)
    (new : Frame) (seat : Seat) : (frames.replace new tag).at? seat =
      if seat = frames.seat tag then some new else frames.at? seat := by
  cases tag with
  | gf => cases seat <;> rfl
  | tf => cases seat <;> rfl
  | lf =>
    obtain ⟨rest, stacked⟩ := List.head?_eq_some_iff.mp present
    cases seat with
    | globals | temporary => rfl
    | locals height =>
      simp only [replace, Frames.at?, Frames.seat, stacked, List.tail_cons,
        getElem?_reverse_cons, List.length_cons, Nat.add_sub_cancel, Seat.locals.injEq]
      split <;> rfl

theorem Frames.changes_of_replace {new : Frame} {value : Value}
    (present : frames.frame? ref.tag = some frame)
    (contents : ∀ name, new.get? name = if name = ref.name then some value else frame.get? name) :
    frames.Changes (frames.replace new ref.tag) ref value where
  present := by rw [at?_seat, present]; rfl
  existing := by
    intro seat
    rw [at?_replace present]
    split
    · rename_i same
      rw [same, at?_seat, present]
      rfl
    · rfl
  contents := by
    intro seat name
    rw [holds?, at?_replace present]
    by_cases same : seat = frames.seat ref.tag
    · have before : frames.holds? seat name = frame.get? name := by
        rw [holds?, same, at?_seat, present, Option.bind_some]
      rw [if_pos same, Option.bind_some, contents, before]
      simp only [same, true_and]
    · rw [if_neg same, if_neg fun both => same both.1, holds?]

theorem Frames.changes_of_define (defined : frames.define ref = .ok next) :
    frames.holds? (frames.seat ref.tag) ref.name = none ∧
      frames.Changes next ref .uninitialized := by
  obtain ⟨frame, present, fresh, rfl⟩ := define_eq_ok defined
  refine ⟨?_, changes_of_replace present (Frame.get?_declare fresh)⟩
  rw [holds?, at?_seat, present, Option.bind_some, fresh]

theorem Frames.changes_of_set {value : Value} (assigned : frames.set ref value = .ok next) :
    (frames.holds? (frames.seat ref.tag) ref.name).isSome ∧ frames.Changes next ref value := by
  obtain ⟨frame, present, declared, rfl⟩ := set_eq_ok assigned
  refine ⟨?_, changes_of_replace present (Frame.get?_assign declared value)⟩
  rwa [holds?, at?_seat, present, Option.bind_some]

end Places

/-! ## Values that are assigned -/

/-- The outcome assigns a value that an action has made, or the value that MOVE was given. -/
def Outcome.Initializes (action : Action) (values : List Value) : Outcome → Prop
  | assign value => value ≠ .uninitialized ∨ action = .move ∧ value ∈ values
  | _ => True

theorem Action.outcome_initializes (action : Action) (values : List Value) :
    Gives (Outcome.Initializes action values) (action.outcome values) := by
  cases action with
  | createFrame | pushFrame | popFrame | define | call | ret | print | inspect | pass | jump =>
    exact .ok trivial
  | move =>
    change Gives _ (onOne _ values)
    unfold onOne
    split
    · exact .ok (Or.inr ⟨rfl, List.mem_singleton_self _⟩)
    · exact .ok trivial
  | typeOf => exact gives_onOne trivial fun _ => .ok (Or.inl nofun)
  | arithmetic _ =>
    refine gives_onTwo trivial fun left right => ?_
    exact .bind fun a _ => .bind fun b _ => .bind fun result _ => .ok (Or.inl nofun)
  | connective _ | concat =>
    refine gives_onTwo trivial fun left right => ?_
    exact .bind fun a _ => .bind fun b _ => .ok (Or.inl nofun)
  | relation _ | charToInt | getChar =>
    refine gives_onTwo trivial fun left right => ?_
    exact .bind fun result _ => .ok (Or.inl nofun)
  | negation | intToFloat =>
    refine gives_onOne trivial fun value => ?_
    exact .bind fun _ _ => .ok (Or.inl nofun)
  | intToChar | length | floatToInt =>
    refine gives_onOne trivial fun value => ?_
    exact .bind fun _ _ => .bind fun _ _ => .ok (Or.inl nofun)
  | read => exact gives_onOne trivial fun name => .bind fun kind _ => .ok trivial
  | write =>
    refine gives_onOne trivial fun value => ?_
    split
    · exact .error
    · exact .ok trivial
  | setChar =>
    refine gives_onThree trivial fun current index replacement => ?_
    refine .bind fun text _ => .bind fun position _ => .bind fun content _ => ?_
    exact .bind fun result _ => .ok (Or.inl nofun)
  | jumpIf equal =>
    refine gives_onTwo trivial fun left right => .bind fun result _ => .ok ?_
    split <;> trivial
  | exit =>
    refine gives_onOne trivial fun value => .bind fun code _ => .bind fun effect _ => ?_
    exact .ok trivial

theorem initialized_of_move {frames : Frames} {operands : List Operand} {values : List Value}
    (found : operands.mapM (Action.lookUp frames .move) = .ok values) {value : Value}
    (given : value ∈ values) : value ≠ .uninitialized := by
  obtain ⟨operand, _, found⟩ := Chain.mem_of_mapM_eq_ok found value given
  exact (value_eq_ok.mp found).2

theorem Input.initialized_of_read {input : Input} {kind : Kind} {value? : Option Value}
    (given : (input.read kind).1 = .ok value?) : value?.getD .nil ≠ .uninitialized := by
  have ofLine {line : Text} (given : valueOfLine kind line = .ok value?) :
      value?.getD .nil ≠ .uninitialized := by
    cases kind with
    | int | float =>
      obtain ⟨number?, _, rfl⟩ := Chain.map_eq_ok.mp given
      cases number? <;> exact nofun
    | bool | string | nil =>
      cases given
      exact nofun
  by_cases none : kind = .nil
  · subst none
    cases given
    exact nofun
  · rw [read_fst none] at given
    cases line? : input.nextLine.1 with
    | none =>
      rw [line?] at given
      cases given
      exact nofun
    | some line =>
      rw [line?] at given
      exact ofLine given

/-! ## Steps -/

section Plans

variable {opcode : Opcode} {labels : LabelTable} {frames : Frames} {operands : List Operand}

/-- A plan to declare a variable is that of DEFVAR, for the variable that its operand names. -/
theorem plan_define {ref : Variable}
    (planned : opcode.plan labels frames operands = .ok (.define ref)) :
    opcode = .defVar ∧ Names operands ref := by
  obtain ⟨_, _, values, outcome, _, given, aimed⟩ := staged_of_plan planned
  have own := opcode.action.outcome_gives values outcome given
  cases aimed with
  | alone => exact own.elim
  | define first readable =>
    refine ⟨?_, _, first, readable⟩
    change opcode.action = .define at own
    cases opcode <;> cases own
    rfl

/-- A plan to assign is for the variable that the first operand names, and not of a missing
value. -/
theorem plan_assign {ref : Variable} {value : Value}
    (planned : opcode.plan labels frames operands = .ok (.assign ref value)) :
    Names operands ref ∧ value ≠ .uninitialized := by
  obtain ⟨_, _, values, outcome, found, given, aimed⟩ := staged_of_plan planned
  cases aimed with
  | alone => exact (opcode.action.outcome_gives values _ given).elim
  | assign first readable =>
    refine ⟨⟨_, first, readable⟩, ?_⟩
    rcases opcode.action.outcome_initializes values _ given with made | ⟨moves, given⟩
    · exact made
    · rw [moves] at found
      exact initialized_of_move found given

def Effect.Framing : Effect → Prop
  | define _ | createFrame | pushFrame | popFrame => True
  | _ => False

theorem not_framing_of_plan {effect : Effect}
    (planned : opcode.plan labels frames operands = .ok effect) (other : ¬ effect.Framing) :
    opcode ∉ Opcode.framing := by
  have apart {own : Opcode} {bare : Effect} (isBare : own.Bare bare) (framing : bare.Framing) :
      opcode ≠ own := by
    rintro rfl
    rw [(plan_eq_ok_iff_of_bare isBare).mpr rfl] at planned
    cases planned
    exact other framing
  have undeclaring : opcode ≠ .defVar := by
    rintro rfl
    obtain ⟨_, _, planned⟩ := Chain.bind_eq_ok.mp planned
    obtain ⟨_, _, planned⟩ := Chain.bind_eq_ok.mp planned
    obtain ⟨ref, _, planned⟩ := Chain.bind_eq_ok.mp planned
    cases planned
    exact other trivial
  simp [Opcode.framing, undeclaring, apart .createFrame trivial, apart .pushFrame trivial,
    apart .popFrame trivial]

end Plans

section Steps

variable {program : Program} {machine : Machine} {operands : List Operand} {opcode : Opcode}

theorem variableEffect_of_perform {labels : LabelTable} {effect : Effect} {flow : Flow}
    (planned : opcode.plan labels machine.frames operands = .ok effect)
    (performed : (machine.perform effect).flow = .ok flow) :
    VariableEffect operands machine.frames opcode (machine.perform effect).machine.frames := by
  cases effect with
  | pass | jump _ | call _ | exit _ | print _ | inspect =>
    exact .keeps (not_framing_of_plan planned id)
  | write text =>
    simp only [Machine.perform]
    split <;> exact .keeps (not_framing_of_plan planned id)
  | ret =>
    simp only [Machine.perform]
    split <;> exact .keeps (not_framing_of_plan planned id)
  | define ref =>
    obtain ⟨rfl, named⟩ := plan_define planned
    obtain ⟨fresh, changes⟩ := Frames.changes_of_define (withFrames_frames performed)
    exact .declares named fresh changes
  | assign ref value =>
    obtain ⟨named, initialized⟩ := plan_assign planned
    obtain ⟨declared, changes⟩ := Frames.changes_of_set (withFrames_frames performed)
    exact .assigns (not_framing_of_plan planned id) named declared initialized changes
  | createFrame =>
    obtain rfl := (plan_eq_ok_iff_of_bare .createFrame).mp planned
    exact .creates
  | pushFrame =>
    obtain rfl := (plan_eq_ok_iff_of_bare .pushFrame).mp planned
    have pushed : machine.frames.push = .ok (machine.perform .pushFrame).machine.frames :=
      withFrames_frames performed
    rw [Frames.push] at pushed
    split at pushed
    · cases pushed
    · rw [← Except.ok.inj pushed]
      exact .pushes ‹_›
  | popFrame =>
    obtain rfl := (plan_eq_ok_iff_of_bare .popFrame).mp planned
    have popped : machine.frames.pop = .ok (machine.perform .popFrame).machine.frames :=
      withFrames_frames performed
    rw [Frames.pop] at popped
    split at popped
    · cases popped
    · rw [← Except.ok.inj popped]
      exact .pops ‹_›
  | read target kind =>
    have other := not_framing_of_plan planned id
    obtain ⟨rfl, _, first, _⟩ := plan_eq_read_iff.mp planned
    rw [Machine.perform] at performed ⊢
    cases given : (machine.input.read kind).1 with
    | error crash =>
      simp only [Machine.readInto, given] at performed
      cases performed
    | ok value? =>
      rw [readInto_of_ok given] at performed ⊢
      cases stored : machine.frames.stored target (value?.getD .nil) with
      | error failure =>
        rw [stored] at performed
        cases performed
      | ok next =>
        obtain ⟨ref, readable, stored⟩ := Chain.bind_eq_ok.mp stored
        have assigned := Chain.mapError_eq_ok.mp (orError_eq_ok.mp stored)
        obtain ⟨declared, changes⟩ := Frames.changes_of_set assigned
        have named : Names operands ref := ⟨target, first, reference_eq_ok readable⟩
        exact .assigns other named declared (Input.initialized_of_read given) changes

/-- The step ends the run with a halt or not at all. -/
def Stepped.Successful (stepped : Stepped) : Prop :=
  ∀ ending, stepped.ending = some ending → ∃ halt, ending = .halted halt

/-- An instruction that succeeds has one of the listed effects on the variables. -/
theorem variableEffect_of_step {instruction : Instruction}
    (dispatched : Dispatches program machine instruction opcode)
    (succeeds : (machine.step program).Successful) :
    VariableEffect instruction.operands machine.frames opcode
      (machine.step program).machine.frames := by
  have transition := transition_of_step program machine
  rw [Stepped.Successful] at succeeds
  generalize (machine.step program).machine = next at transition ⊢
  generalize (machine.step program).ending = reached at transition succeeds
  cases transition with
  | completed past =>
    rw [dispatched.fetched] at past
    cases past
  | unknown fetched unknown =>
    obtain ⟨halt, impossible⟩ := succeeds _ rfl
    cases impossible
  | @planless _ _ failure _ failed =>
    obtain ⟨halt, impossible⟩ := succeeds _ rfl
    cases failure <;> cases impossible
  | @refused _ _ _ failure _ planned refused =>
    obtain ⟨halt, impossible⟩ := succeeds _ rfl
    cases failure <;> cases impossible
  | @performed other otherOpcode effect flow dispatchedToo planned performed =>
    obtain ⟨rfl, rfl⟩ := dispatched.unique dispatchedToo
    have counted : VariableEffect other.operands machine.counted.frames otherOpcode
        (machine.counted.perform effect).machine.frames :=
      variableEffect_of_perform planned performed
    rw [Flow.settle_frames]
    exact counted

end Steps

/-! ## Runs -/

/-- Where a frame stands after a step of any kind, if it still exists. -/
def Machine.seatAfter (program : Program) (machine : Machine) (seat : Seat) : Option Seat :=
  match (machine.step program).ending, program.opcodeAt? machine.pc with
  | none, some opcode => seat.after opcode machine.frames.locals.length
  | _, _ => some seat

/-- Where a frame stands after so many steps, if it still exists. -/
def Machine.follow (program : Program) (first : Machine) (seat : Seat) : Nat → Option Seat
  | 0 => some seat
  | count + 1 => (first.follow program seat count).bind
      ((first.after program count).seatAfter program)

section Kept

variable {operands : List Operand} {opcode : Opcode} {before after : Frames} {seat next : Seat}
  {name : Text} {value : Value}

theorem Seat.after_of_not_framing (other : opcode ∉ Opcode.framing) (height : Nat)
    (seat : Seat) : seat.after opcode height = some seat := by
  cases opcode with
  | createFrame | pushFrame | popFrame => exact absurd (by decide) other
  | _ => rfl

theorem at?_of_moved (effect : VariableEffect operands before opcode after)
    (framing : opcode ∈ Opcode.framing) (undeclaring : opcode ≠ .defVar)
    (kept : seat.after opcode before.locals.length = some next) {frame : Frame}
    (there : before.at? seat = some frame) : after.at? next = some frame := by
  cases effect with
  | declares => exact absurd rfl undeclaring
  | keeps other => exact absurd framing other
  | assigns other => exact absurd framing other
  | creates =>
    cases seat with
    | temporary => cases kept
    | globals | locals height =>
      cases kept
      exact there
  | @pushes top present =>
    cases seat with
    | globals =>
      cases kept
      exact there
    | temporary =>
      cases kept
      obtain rfl : top = frame := Option.some.inj (present.symm.trans there)
      exact (getElem?_reverse_cons top before.locals before.locals.length).trans (if_pos rfl)
    | locals height =>
      cases kept
      have below : height < before.locals.reverse.length :=
        (List.getElem?_eq_some_iff.mp there).1
      rw [List.length_reverse] at below
      rw [Frames.at?, getElem?_reverse_cons, if_neg (Nat.ne_of_lt below)]
      exact there
  | @pops top rest stacked =>
    cases seat with
    | globals =>
      cases kept
      exact there
    | temporary => cases kept
    | locals height =>
      rw [Frames.at?, stacked, getElem?_reverse_cons] at there
      rw [stacked, List.length_cons] at kept
      cases kept
      -- the frame on top becomes the temporary one, and those below it stay
      by_cases last : height = rest.length
      · rw [if_pos last] at there
        rw [if_pos (congrArg (· + 1) last)]
        exact there
      · rw [if_neg last] at there
        rw [if_neg fun same => last (Nat.succ.inj same)]
        exact there

/-- A variable whose frame still exists is still declared, and has a value if it had one. -/
theorem exists_holds_of_kept (effect : VariableEffect operands before opcode after)
    (kept : seat.after opcode before.locals.length = some next)
    (held : before.holds? seat name = some value) :
    ∃ later, after.holds? next name = some later ∧
      (value ≠ .uninitialized → later ≠ .uninitialized) := by
  have moved (framing : opcode ∈ Opcode.framing) (undeclaring : opcode ≠ .defVar) :
      ∃ later, after.holds? next name = some later ∧
        (value ≠ .uninitialized → later ≠ .uninitialized) := by
    obtain ⟨frame, there, found⟩ := Option.bind_eq_some_iff.mp held
    refine ⟨value, ?_, id⟩
    rw [Frames.holds?, at?_of_moved effect framing undeclaring kept there]
    exact found
  cases effect with
  | creates => exact moved (by decide) nofun
  | pushes present => exact moved (by decide) nofun
  | pops stacked => exact moved (by decide) nofun
  | declares named fresh changes =>
    cases kept
    refine ⟨value, ?_, id⟩
    rw [changes.contents, held, if_neg]
    -- the declared variable is not this one, which was there before
    rintro ⟨rfl, rfl⟩
    rw [fresh] at held
    cases held
  | keeps other =>
    rw [Seat.after_of_not_framing other] at kept
    cases kept
    exact ⟨value, held, id⟩
  | @assigns _ _ ref new other named declared initialized changes =>
    rw [Seat.after_of_not_framing other] at kept
    cases kept
    rw [changes.contents, held]
    split
    · exact ⟨new, rfl, fun _ => initialized⟩
    · exact ⟨value, rfl, id⟩

end Kept

section Runs

variable {program : Program} {machine first : Machine} {seat next : Seat} {name : Text}
  {value : Value}

theorem exists_holds_of_next (kept : machine.seatAfter program seat = some next)
    (held : machine.frames.holds? seat name = some value) :
    ∃ later, (machine.next program).frames.holds? next name = some later ∧
      (value ≠ .uninitialized → later ≠ .uninitialized) := by
  cases ended : (machine.step program).ending with
  | some ending =>
    rw [Machine.seatAfter, ended] at kept
    cases kept
    rw [frames_of_ended ended]
    exact ⟨value, held, id⟩
  | none =>
    obtain ⟨instruction, opcode, effect, flow, succeeds, performs⟩ := exists_performs ended
    rw [Machine.seatAfter, succeeds.next, ended] at kept
    have successful : (machine.step program).Successful := by
      intro ending impossible
      rw [ended] at impossible
      cases impossible
    rw [next_frames]
    exact exists_holds_of_kept (variableEffect_of_step performs.dispatched successful) kept held

theorem exists_holds_of_follow (count : Nat)
    (kept : first.follow program seat count = some next)
    (held : first.frames.holds? seat name = some value) :
    ∃ later, (first.after program count).frames.holds? next name = some later ∧
      (value ≠ .uninitialized → later ≠ .uninitialized) := by
  induction count generalizing next with
  | zero =>
    cases kept
    exact ⟨value, held, id⟩
  | succ count ih =>
    obtain ⟨before, followed, kept⟩ := Option.bind_eq_some_iff.mp kept
    obtain ⟨earlier, heldThen, initialized⟩ := ih followed
    obtain ⟨later, holds, stays⟩ := exists_holds_of_next kept heldThen
    exact ⟨later, holds, fun given => stays (initialized given)⟩

theorem follow_globals (count : Nat) :
    first.follow program .globals count = some .globals := by
  induction count with
  | zero => rfl
  | succ count ih =>
    rw [Machine.follow, ih, Option.bind_some, Machine.seatAfter]
    split
    · rename_i opcode _ _
      cases opcode <;> rfl
    · rfl

end Runs

/-- An instruction that succeeds declares exactly the variable that a DEFVAR names, makes or
moves a frame as it is, or gives at most the variable that its first operand names a value,
which is not a missing one. So over any number of steps, also across the ends of runs, a
variable stays declared for as long as its frame exists, and keeps a value once it has one. The
global frame always exists, and its variables never disappear. -/
theorem assigned_variables_stay_assigned (program : Program) :
    (∀ (machine : Machine) (instruction : Instruction) (opcode : Opcode),
      Dispatches program machine instruction opcode → (machine.step program).Successful →
      VariableEffect instruction.operands machine.frames opcode
        (machine.step program).machine.frames) ∧
    (∀ (first : Machine) (seat next : Seat) (count : Nat) (name : Text) (value : Value),
      first.follow program seat count = some next →
      first.frames.holds? seat name = some value →
      ∃ later, (first.after program count).frames.holds? next name = some later ∧
        (value ≠ .uninitialized → later ≠ .uninitialized)) ∧
    ∀ (first : Machine) (count : Nat) (name : Text), (first.frames.globals.get? name).isSome →
      ((first.after program count).frames.globals.get? name).isSome := by
  refine ⟨fun machine instruction opcode => variableEffect_of_step, ?_, ?_⟩
  · intro first seat next count name value kept held
    exact exists_holds_of_follow count kept held
  · intro first count name declared
    obtain ⟨value, held⟩ := Option.isSome_iff_exists.mp declared
    obtain ⟨later, holds, _⟩ := exists_holds_of_follow count (follow_globals count) held
    exact Option.isSome_of_eq_some holds

/-- A program that pushes a frame, gives the type of a global variable without a value to the
variable of that frame, and pops it. -/
def retypesPushed : Program :=
  ⟨[⟨1, "DEFVAR".toList, [⟨.var, "GF@g".toList⟩]⟩, ⟨2, "CREATEFRAME".toList, []⟩,
    ⟨3, "DEFVAR".toList, [⟨.var, "TF@x".toList⟩]⟩,
    ⟨4, "MOVE".toList, [⟨.var, "TF@x".toList⟩, ⟨.literal .int, ['1']⟩]⟩,
    ⟨5, "PUSHFRAME".toList, []⟩,
    ⟨6, "TYPE".toList, [⟨.var, "LF@x".toList⟩, ⟨.var, "GF@g".toList⟩]⟩,
    ⟨7, "POPFRAME".toList, []⟩], []⟩

/-- The machine at the PUSHFRAME. -/
def beforeRetyping : Machine := (Machine.start ⟨[]⟩ .unbounded).after retypesPushed 4

/-- The variable is assigned in the local frame and has a value in the temporary one, where the
frame stands again. -/
theorem retyped_variable_has_value :
    beforeRetyping.follow retypesPushed .temporary 3 = some .temporary ∧
    beforeRetyping.frames.holds? .temporary ['x'] = some (.int 1) ∧
    (∃ later, (beforeRetyping.after retypesPushed 3).frames.holds? .temporary ['x'] =
      some later ∧ later ≠ .uninitialized) ∧
    ((beforeRetyping.after retypesPushed 3).frames.globals.get? ['g']).isSome ∧
    VariableEffect [⟨.var, "LF@x".toList⟩, ⟨.var, "GF@g".toList⟩]
      (beforeRetyping.after retypesPushed 1).frames .type
      (beforeRetyping.after retypesPushed 2).frames := by
  obtain ⟨steps, runs, globals⟩ := assigned_variables_stay_assigned retypesPushed
  have followed : beforeRetyping.follow retypesPushed .temporary 3 = some .temporary := by
    decide +kernel
  have held : beforeRetyping.frames.holds? .temporary ['x'] = some (.int 1) := by decide +kernel
  obtain ⟨later, holds, initialized⟩ := runs _ _ _ 3 _ _ followed held
  have goes : ((beforeRetyping.after retypesPushed 1).step retypesPushed).ending = none := by
    decide +kernel
  have successful : ((beforeRetyping.after retypesPushed 1).step retypesPushed).Successful := by
    intro ending ended
    rw [goes] at ended
    cases ended
  exact ⟨followed, held, ⟨later, holds, initialized nofun⟩,
    globals beforeRetyping 3 ['g'] (by decide +kernel),
    steps _ ⟨6, "TYPE".toList, [⟨.var, "LF@x".toList⟩, ⟨.var, "GF@g".toList⟩]⟩ .type
      ⟨by decide +kernel, by decide +kernel⟩ successful⟩

end IPPcode24
