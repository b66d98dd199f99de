import IPPcode24.Machine.Run

/-!
# Sinks

What can be asked of a sink. Some sinks refuse nothing, some keep nothing of what they refuse,
and some never change their mind. A bounded sink keeps nothing of what it refuses and does not
change its mind, since it is never left with fewer bytes than before.
-/

namespace IPPcode24

@[simp] theorem Reception.contents_cons (reception : Reception) (past : List Reception) :
    contents (reception :: past) = contents past ++ reception.kept := by
  simp [contents]

/-! ## Conditions -/

namespace Sink

/-- No text is refused. -/
def TakesAll (sink : Sink) : Prop := ∀ past text, sink.refusal? past text = none

/-- Nothing is kept of a text that is refused. -/
def KeepsNothing (sink : Sink) : Prop :=
  ∀ past text error kept, sink.refusal? past text = some (error, kept) → kept = []

/-- Refusals and flushes do not change over time: whatever happens after a text has been
refused, it is refused again for the same reason, and a flush always comes to the same. -/
structure Steady (sink : Sink) : Prop where
  refuses : ∀ past text error kept reception, sink.refusal? past text = some (error, kept) →
    ∃ keptToo, sink.refusal? (reception :: past) text = some (error, keptToo)
  flushes : ∀ past reception, sink.flushError? (reception :: past) = sink.flushError? past

variable {sink : Sink}

/-- A refusal lasts, whatever the sink is asked in between. -/
theorem Steady.refused_later (steady : sink.Steady) {past : List Reception} {text : Text}
    {error : OutputError} {kept : Text} (refused : sink.refusal? past text = some (error, kept))
    (later : List Reception) :
    ∃ keptToo, sink.refusal? (later ++ past) text = some (error, keptToo) := by
  induction later with
  | nil => exact ⟨kept, refused⟩
  | cons reception later ih =>
    obtain ⟨keptToo, refusedToo⟩ := ih
    exact steady.refuses _ _ _ _ reception refusedToo

theorem Steady.flushError?_later (steady : sink.Steady) (past later : List Reception) :
    sink.flushError? (later ++ past) = sink.flushError? past := by
  induction later with
  | nil => rfl
  | cons reception later ih => rw [List.cons_append, steady.flushes, ih]

theorem takesAll_unbounded : unbounded.TakesAll := fun _ _ => rfl

section Bounded

variable {limit : Nat} {full : OutputError} {flushError? : Option OutputError}

theorem keepsNothing_bounded : (bounded limit full flushError?).KeepsNothing := by
  intro past text error kept refused
  simp only [bounded] at refused
  split at refused
  · cases refused
  · cases refused
    rfl

theorem steady_bounded : (bounded limit full flushError?).Steady := by
  refine ⟨fun past text error kept reception refused => ⟨kept, ?_⟩, fun _ _ => rfl⟩
  simp only [bounded, Reception.contents_cons, Text.byteCount_append] at refused ⊢
  split at refused
  · cases refused
  · rw [if_neg (by omega), refused]

end Bounded

end Sink

/-! ## Requests -/

namespace Output

variable {output : Output}

/-- The sink with one more text. -/
def taking (output : Output) (text : Text) : Output :=
  { output with past := .taken text :: output.past }

/-- The sink that has refused a text and kept nothing of it. -/
def refusing (output : Output) (text : Text) (error : OutputError) : Output :=
  { output with past := .refused text error [] :: output.past }

theorem text_refusing (output : Output) (text : Text) (error : OutputError) :
    (output.refusing text error).text = output.text := by
  simp [refusing, Output.text, Reception.kept]

theorem text_taking (output : Output) (text : Text) :
    (output.taking text).text = output.text ++ text := by
  simp [taking, Output.text, Reception.kept]

theorem write_of_takesAll (takes : output.sink.TakesAll) (text : Text) :
    output.write text = (.ok (), output.taking text) := by
  rw [write, takes]
  rfl

theorem sink_write (output : Output) (text : Text) :
    (output.write text).2.sink = output.sink := by
  rw [write]
  split <;> rfl

theorem past_write (output : Output) (text : Text) :
    ∃ reception, (output.write text).2.past = reception :: output.past := by
  rw [write]
  split <;> exact ⟨_, rfl⟩

theorem sink_flush (output : Output) : output.flush.2.sink = output.sink := by
  rw [flush]
  split <;> rfl

theorem past_flush (output : Output) :
    ∃ reception, output.flush.2.past = reception :: output.past := by
  rw [flush]
  split <;> exact ⟨_, rfl⟩

theorem text_flush (output : Output) : output.flush.2.text = output.text := by
  rw [flush]
  split <;> simp [Output.text, Reception.kept]

theorem text_write_of_refused (keeps : output.sink.KeepsNothing) {text : Text}
    {error : OutputError} (refused : (output.write text).1 = .error error) :
    (output.write text).2.text = output.text := by
  rw [write] at refused ⊢
  split
  · rename_i taken
    rw [taken] at refused
    cases refused
  · rename_i other kept unkept
    simp [Output.text, Reception.kept, keeps _ _ _ _ unkept]

end Output

theorem text_closed (machine : Machine) (reached : Ending) :
    (machine.closed reached).output.text = machine.output.text := by
  cases reached with
  | halted _ | failed _ => exact machine.output.text_flush
  | crashed _ => rfl

end IPPcode24
