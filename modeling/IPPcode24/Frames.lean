import IPPcode24.Value

/-!
# Frames

Variables live in frames: one global frame, at most one temporary frame, and a
stack of local frames of which only the top is visible. A variable is declared
once in its frame and vanishes only with it.
-/

namespace IPPcode24

/-- The frame that a variable is looked for in. -/
inductive FrameTag where
  | gf
  | tf
  | lf
deriving DecidableEq

namespace FrameTag

def all : List FrameTag := [gf, tf, lf]

def name : FrameTag → String
  | gf => "GF"
  | tf => "TF"
  | lf => "LF"

/-- The frame with a tag, spelled exactly. -/
def ofName? (name : Text) : Option FrameTag := all.find? fun tag => tag.name.toList == name

end FrameTag

/-- A variable by its frame and its name. -/
structure Variable where
  tag : FrameTag
  name : Text
deriving DecidableEq

namespace Variable

/-- Reads a variable as `tag@name`; the name is everything after the first at
sign and is not empty. -/
def ofSource? (text : Text) : Option Variable := do
  let (tag, name) ← Text.cut '@' text
  let tag ← FrameTag.ofName? tag
  if name = [] then none else return ⟨tag, name⟩

def source (ref : Variable) : Text :=
  ref.tag.name.toList ++ '@' :: ref.name

end Variable

/-- Why a variable or a frame cannot be used. -/
inductive FrameError where
  | redefined (ref : Variable)
  | undefined (ref : Variable)
  | missing (tag : FrameTag)
deriving DecidableEq

def FrameError.message : FrameError → String
  | redefined ref => s!"variable '{Text.shown ref.source}' already defined"
  | undefined ref => s!"variable '{Text.shown ref.source}' not defined"
  | missing tag => s!"{tag.name} frame not available"

/-- The declared variables of a frame with their contents, in the order of
declaration. -/
abbrev Frame := List (Text × Value)

namespace Frame

def get? (frame : Frame) (name : Text) : Option Value := frame.lookup name

/-- The frame with the content of one declared variable replaced. -/
def assign (name : Text) (value : Value) : Frame → Frame
  | [] => []
  | (other, content) :: rest =>
    if other = name then (other, value) :: rest
    else (other, content) :: assign name value rest

/-- The frame with one more variable, which has no value yet. -/
def declare (frame : Frame) (name : Text) : Frame := frame ++ [(name, .uninitialized)]

end Frame

/-- The frames of a run. The local frame on top of the stack comes first. -/
structure Frames where
  globals : Frame
  temporary : Option Frame
  locals : List Frame
deriving DecidableEq

namespace Frames

/-- No variables, no temporary frame and no local frame. -/
def empty : Frames := ⟨[], none, []⟩

/-- The frame that a tag stands for, if it exists. -/
def frame? (frames : Frames) : FrameTag → Option Frame
  | .gf => some frames.globals
  | .tf => frames.temporary
  | .lf => frames.locals.head?

/-- The frames with the one that a tag stands for replaced. -/
def replace (frames : Frames) (frame : Frame) : FrameTag → Frames
  | .gf => { frames with globals := frame }
  | .tf => { frames with temporary := some frame }
  | .lf => { frames with locals := frame :: frames.locals.tail }

def define (frames : Frames) (ref : Variable) : Except FrameError Frames :=
  match frames.frame? ref.tag with
  | none => .error (.missing ref.tag)
  | some frame =>
    if (frame.get? ref.name).isSome then .error (.redefined ref)
    else .ok (frames.replace (frame.declare ref.name) ref.tag)

def set (frames : Frames) (ref : Variable) (value : Value) :
    Except FrameError Frames :=
  match frames.frame? ref.tag with
  | none => .error (.missing ref.tag)
  | some frame =>
    if (frame.get? ref.name).isSome then
      .ok (frames.replace (frame.assign ref.name value) ref.tag)
    else .error (.undefined ref)

def get (frames : Frames) (ref : Variable) : Except FrameError Value :=
  match frames.frame? ref.tag with
  | none => .error (.missing ref.tag)
  | some frame =>
    match frame.get? ref.name with
    | none => .error (.undefined ref)
    | some value => .ok value

/-- Starts an empty temporary frame in place of the present one. -/
def create (frames : Frames) : Frames := { frames with temporary := some [] }

/-- Moves the temporary frame onto the stack of local frames. -/
def push (frames : Frames) : Except FrameError Frames :=
  match frames.temporary with
  | none => .error (.missing .tf)
  | some frame => .ok { frames with temporary := none, locals := frame :: frames.locals }

/-- Moves the top of the stack of local frames into the place of the temporary
frame. -/
def pop (frames : Frames) : Except FrameError Frames :=
  match frames.locals with
  | [] => .error (.missing .lf)
  | frame :: rest => .ok { frames with temporary := some frame, locals := rest }

end Frames

end IPPcode24
