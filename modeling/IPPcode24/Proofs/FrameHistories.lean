import IPPcode24.Proofs.Variables
import Mathlib.Data.List.Nodup
import Mathlib.Logic.Function.Basic

/-!
# Histories of frames

A frame moves between the place of the temporary frame and the stack of local frames, is
hidden there and comes to light again, and is lost when another one takes its place. Here
every frame gets a number when it is made, and a history of operations keeps, beside the
frames themselves, which of them is in which place and what has been done to the variables
of each. Operations keep the places proper: no frame is in two of them.
-/

namespace IPPcode24

/-- What can be done to the frames. -/
inductive FrameOperation where
  | define (ref : Variable)
  | set (ref : Variable) (value : Value)
  | get (ref : Variable)
  | create
  | push
  | pop
deriving DecidableEq

/-- The frames after an operation. Reading a variable leaves them as they are. -/
def Frames.apply (frames : Frames) : FrameOperation → Except FrameError Frames
  | .define ref => frames.define ref
  | .set ref value => frames.set ref value
  | .get ref => (frames.get ref).map fun _ => frames
  | .create => .ok frames.create
  | .push => frames.push
  | .pop => frames.pop

/-! ## Histories -/

/-- How many frames have been made, and which of them are in which place. The global frame
has the number zero and the others are numbered from one on as they are made. -/
structure Placement where
  created : Nat
  temporary : Option Nat
  locals : List Nat
deriving DecidableEq

namespace Placement

def start : Placement := ⟨0, none, []⟩

/-- The numbers of the frames in the temporary place and on the stack. -/
def held (placement : Placement) : List Nat := placement.temporary.toList ++ placement.locals

def number? (placement : Placement) : FrameTag → Option Nat
  | .gf => some 0
  | .tf => placement.temporary
  | .lf => placement.locals.head?

/-- The placement after an operation that succeeds. -/
def after (placement : Placement) : FrameOperation → Placement
  | .create => ⟨placement.created + 1, some (placement.created + 1), placement.locals⟩
  | .push => ⟨placement.created, none, placement.held⟩
  | .pop => ⟨placement.created, placement.locals.head?, placement.locals.tail⟩
  | _ => placement

end Placement

/-- What has been done to a variable of the frame with a number. -/
inductive Deed where
  | defined (number : Nat) (name : Text)
  | assigned (number : Nat) (name : Text) (value : Value)
deriving DecidableEq

/-- What an operation that succeeds does to a variable. -/
def FrameOperation.deeds (placement : Placement) : FrameOperation → List Deed
  | define ref => (placement.number? ref.tag).toList.map fun number => .defined number ref.name
  | set ref value =>
    (placement.number? ref.tag).toList.map fun number => .assigned number ref.name value
  | _ => []

def Deed.valueFor? (number : Nat) (name : Text) : Deed → Option Value
  | defined _ _ => none
  | assigned other written value => if other = number ∧ written = name then some value else none

/-- The value that a variable of a frame was given last; the latest deed comes first. -/
def lastValue? (deeds : List Deed) (number : Nat) (name : Text) : Option Value :=
  deeds.findSome? (Deed.valueFor? number name)

/-- Frames with their places and with what has been done to their variables. -/
structure History where
  frames : Frames
  placement : Placement
  deeds : List Deed

namespace History

def start : History := ⟨Frames.empty, .start, []⟩

/-- The history after one more operation, which does nothing when it fails. -/
def after (history : History) (operation : FrameOperation) : History :=
  match history.frames.apply operation with
  | .error _ => history
  | .ok frames =>
    ⟨frames, history.placement.after operation,
      operation.deeds history.placement ++ history.deeds⟩

/-- The history of operations on fresh frames. -/
def of (operations : List FrameOperation) : History := operations.foldl after start

end History

/-! ## Places -/

namespace Placement

/-- No frame is in two places, and none has a number that has not been given out. -/
structure Proper (placement : Placement) : Prop where
  distinct : (0 :: placement.held).Nodup
  numbered : ∀ number ∈ placement.held, number ≤ placement.created

variable {placement : Placement} {number : Nat}

theorem mem_held_of_temporary (given : placement.temporary = some number) :
    number ∈ placement.held := by
  rw [held, given]
  exact List.mem_cons_self

theorem mem_held_of_locals (stacked : number ∈ placement.locals) : number ∈ placement.held :=
  List.mem_append_right _ stacked

theorem held_pop (placement : Placement) : (placement.after .pop).held = placement.locals := by
  cases given : placement.locals <;> simp [after, given, held]

/-- An operation leaves frames where they are, moves or drops them, or adds a new one. -/
theorem mem_held_after {operation : FrameOperation}
    (found : number ∈ (placement.after operation).held) :
    number ∈ placement.held ∨ operation = .create ∧ number = placement.created + 1 := by
  cases operation with
  | define | set | get | push => exact Or.inl found
  | create =>
    rcases List.mem_cons.mp found with same | stacked
    · exact Or.inr ⟨rfl, same⟩
    · exact Or.inl (mem_held_of_locals stacked)
  | pop =>
    rw [held_pop] at found
    exact Or.inl (mem_held_of_locals found)

theorem created_le_after (operation : FrameOperation) :
    placement.created ≤ (placement.after operation).created := by
  cases operation with
  | create => exact Nat.le_succ _
  | define | set | get | push | pop => exact Nat.le_refl _

theorem Proper.ne_zero (proper : placement.Proper) (found : number ∈ placement.held) :
    0 ≠ number := by
  rintro rfl
  exact (List.nodup_cons.mp proper.distinct).1 found

theorem Proper.not_stacked (proper : placement.Proper)
    (given : placement.temporary = some number) : number ∉ placement.locals := by
  intro stacked
  obtain ⟨_, distinct⟩ := List.nodup_cons.mp proper.distinct
  rw [held, given] at distinct
  exact (List.nodup_cons.mp distinct).1 stacked

theorem Proper.after (proper : placement.Proper) (operation : FrameOperation) :
    (placement.after operation).Proper := by
  have numbered : ∀ number ∈ (placement.after operation).held,
      number ≤ (placement.after operation).created := by
    intro number held
    rcases mem_held_after held with before | ⟨rfl, rfl⟩
    · exact Nat.le_trans (proper.numbered number before) (created_le_after operation)
    · exact Nat.le_refl _
  refine ⟨?_, numbered⟩
  have below : (0 :: placement.locals).Nodup :=
    proper.distinct.sublist ((List.sublist_append_right _ _).cons_cons 0)
  cases operation with
  | define | set | get | push => exact proper.distinct
  | pop =>
    rw [held_pop]
    exact below
  | create =>
    have new : placement.created + 1 ∉ placement.locals := by
      intro stacked
      have := proper.numbered _ (mem_held_of_locals stacked)
      omega
    obtain ⟨noZero, distinct⟩ := List.nodup_cons.mp below
    refine List.nodup_cons.mpr ⟨?_, List.nodup_cons.mpr ⟨new, distinct⟩⟩
    intro held
    rcases List.mem_cons.mp held with same | stacked
    · omega
    · exact noZero stacked

def frames (placement : Placement) (heap : Nat → Frame) : Frames :=
  ⟨heap 0, placement.temporary.map heap, placement.locals.map heap⟩

theorem frame?_frames (heap : Nat → Frame) (tag : FrameTag) :
    (placement.frames heap).frame? tag = (placement.number? tag).map heap := by
  cases tag with
  | gf | tf => rfl
  | lf => exact List.head?_map

theorem map_update {numbers : List Nat} (absent : number ∉ numbers)
    (heap : Nat → Frame) (frame : Frame) :
    numbers.map (Function.update heap number frame) = numbers.map heap := by
  refine List.map_congr_left fun other member => ?_
  have apart : other ≠ number := fun same => absent (same ▸ member)
  exact Function.update_of_ne apart frame heap

theorem optionMap_update {number? : Option Nat} (absent : number? ≠ some number)
    (heap : Nat → Frame) (frame : Frame) :
    number?.map (Function.update heap number frame) = number?.map heap := by
  cases number? with
  | none => rfl
  | some other =>
    have apart : other ≠ number := fun same => absent (congrArg some same)
    exact congrArg some (Function.update_of_ne apart frame heap)

/-- Rewriting the frame in a place is rewriting the frame with the number that is there. -/
theorem replace_frames (proper : placement.Proper) {tag : FrameTag}
    (found : placement.number? tag = some number) (heap : Nat → Frame) (frame : Frame) :
    (placement.frames heap).replace frame tag =
      placement.frames (Function.update heap number frame) := by
  -- the number is in one place only, so the frames in the other places are not updated
  cases tag with
  | gf =>
    cases found
    have below : 0 ∉ placement.locals := fun stacked =>
      proper.ne_zero (mem_held_of_locals stacked) rfl
    have beside : placement.temporary ≠ some 0 := fun given =>
      proper.ne_zero (mem_held_of_temporary given) rfl
    simp only [Frames.replace, frames, map_update below, optionMap_update beside,
      Function.update_self]
  | tf =>
    have given : placement.temporary = some number := found
    have below := proper.not_stacked given
    have above := proper.ne_zero (mem_held_of_temporary given)
    simp only [Frames.replace, frames, map_update below, given, Option.map_some,
      Function.update_self, Function.update_of_ne above]
  | lf =>
    obtain ⟨rest, stacked⟩ := List.head?_eq_some_iff.mp found
    have top : number ∈ placement.locals := List.mem_of_head? found
    have above := proper.ne_zero (mem_held_of_locals top)
    have beside : placement.temporary ≠ some number := fun given => proper.not_stacked given top
    have below : number ∉ rest := by
      obtain ⟨_, distinct⟩ := List.nodup_cons.mp proper.distinct
      have onStack := (List.nodup_append.mp distinct).2.1
      rw [stacked] at onStack
      exact (List.nodup_cons.mp onStack).1
    simp only [Frames.replace, frames, stacked, List.map_cons, List.tail_cons, map_update below,
      optionMap_update beside, Function.update_self, Function.update_of_ne above]

theorem Proper.number_le (proper : placement.Proper) {tag : FrameTag}
    (found : placement.number? tag = some number) : number ≤ placement.created := by
  cases tag with
  | gf =>
    cases found
    exact Nat.zero_le _
  | tf => exact proper.numbered number (mem_held_of_temporary found)
  | lf => exact proper.numbered number (mem_held_of_locals (List.mem_of_head? found))

end Placement

/-! ## Deeds -/

/-- What a variable of a frame contains after these deeds, if it has been declared. -/
def content? (deeds : List Deed) (number : Nat) (name : Text) : Option Value :=
  if .defined number name ∈ deeds then some ((lastValue? deeds number name).getD .uninitialized)
  else none

section Deeds

variable {deeds : List Deed} {number : Nat} {name : Text}

theorem lastValue?_eq_none (unassigned : ∀ value, .assigned number name value ∉ deeds) :
    lastValue? deeds number name = none := by
  refine List.findSome?_eq_none_iff.mpr ?_
  intro deed member
  cases deed with
  | defined => rfl
  | assigned other written value =>
    refine if_neg ?_
    rintro ⟨rfl, rfl⟩
    exact unassigned value member

/-- A variable that is declared for the first time has no value yet. -/
theorem content?_defined (unassigned : ∀ value, .assigned number name value ∉ deeds)
    (other : Nat) (wanted : Text) :
    content? (.defined number name :: deeds) other wanted =
      if other = number ∧ wanted = name then some .uninitialized
      else content? deeds other wanted := by
  have last : lastValue? (.defined number name :: deeds) other wanted =
      lastValue? deeds other wanted := rfl
  rw [content?, last]
  by_cases same : other = number ∧ wanted = name
  · obtain ⟨rfl, rfl⟩ := same
    rw [if_pos List.mem_cons_self, if_pos ⟨rfl, rfl⟩, lastValue?_eq_none unassigned]
    rfl
  · have apart : Deed.defined other wanted ≠ .defined number name := by
      intro equal
      cases equal
      exact same ⟨rfl, rfl⟩
    simp only [List.mem_cons, apart, false_or, if_neg same, content?]

theorem content?_assigned (declared : .defined number name ∈ deeds) (value : Value)
    (other : Nat) (wanted : Text) :
    content? (.assigned number name value :: deeds) other wanted =
      if other = number ∧ wanted = name then some value
      else content? deeds other wanted := by
  have older : Deed.defined other wanted ∈ Deed.assigned number name value :: deeds ↔
      Deed.defined other wanted ∈ deeds := by simp
  by_cases same : other = number ∧ wanted = name
  · obtain ⟨rfl, rfl⟩ := same
    rw [content?, if_pos (older.mpr declared), if_pos ⟨rfl, rfl⟩]
    simp [lastValue?, Deed.valueFor?]
  · have apart : ¬ (number = other ∧ name = wanted) := fun equal =>
      same ⟨equal.1.symm, equal.2.symm⟩
    have last : lastValue? (.assigned number name value :: deeds) other wanted =
        lastValue? deeds other wanted := by
      simp [lastValue?, Deed.valueFor?, apart]
    rw [if_neg same, content?, content?, last]
    simp only [older]

theorem get?_update {heap : Nat → Frame} {frame : Frame} {value : Value}
    (changed : ∀ other, frame.get? other =
      if other = name then some value else (heap number).get? other)
    (other : Nat) (wanted : Text) :
    (Function.update heap number frame other).get? wanted =
      if other = number ∧ wanted = name then some value else (heap other).get? wanted := by
  by_cases same : other = number
  · rw [same, Function.update_self, changed]
    simp only [true_and]
  · rw [Function.update_of_ne same, if_neg fun both => same both.1]

end Deeds

end IPPcode24
