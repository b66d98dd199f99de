import IPPcode24.Event
import IPPcode24.Frames
import IPPcode24.Input
import IPPcode24.Output

/-!
# Machine states

Everything that a run changes: the frames, the return addresses of the calls that
are open, the place of the next instruction, the count of executed instructions,
and the two ends of input and output. The count is a natural number: no run comes to
the `2 ^ 64` steps at which a word would be full.
-/

namespace IPPcode24

/-- The places to return to, the latest call first. -/
abbrev CallStack := List Nat

namespace CallStack

def push (calls : CallStack) (place : Nat) : CallStack := place :: calls

/-- The latest place to return to, and the stack without it. -/
def pop? : CallStack → Option (Nat × CallStack)
  | [] => none
  | place :: rest => some (place, rest)

def depth (calls : CallStack) : Nat := calls.length

end CallStack

structure Machine where
  frames : Frames
  calls : CallStack
  pc : Nat
  steps : Nat
  input : Input
  output : Output

/-- A machine before its first instruction. -/
def Machine.start (input : Input) (output : Output) : Machine :=
  ⟨Frames.empty, [], 0, 0, input, output⟩

/-- How a run ends without an error: past the last instruction, or by an EXIT with
a code below ten. -/
inductive Halt where
  | completed
  | exit (code : Fin 10)
deriving DecidableEq

def Halt.code : Halt → Nat
  | completed => 0
  | exit code => code

inductive Ending where
  | halted (halt : Halt)
  | failed (error : RunError)
  | crashed (crash : Crash)
deriving DecidableEq

end IPPcode24
