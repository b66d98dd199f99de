/-!
# Failures and crashes

An operation that gives no answer either reports an error, which has a kind, a
message and an exit code, or crashes, which ends the whole program without any.
-/

namespace IPPcode24

/-- What ends a program without an answer. -/
inductive Crash where
  /-- The first two bytes of a number were looked at, and the second byte is not
  the last byte of a character. -/
  | dividedCharacter
  /-- An operand was used that its instruction does not have. -/
  | absentOperand
deriving DecidableEq

/-- Why an operation gives no answer. -/
inductive Failure (ε : Type) where
  | error (error : ε)
  | crash (crash : Crash)
deriving DecidableEq

instance exceptDecidableEq {ε α : Type} [DecidableEq ε] [DecidableEq α] :
    DecidableEq (Except ε α)
  | .ok a, .ok b => if h : a = b then isTrue (h ▸ rfl) else isFalse fun e => h (Except.ok.inj e)
  | .error a, .error b =>
    if h : a = b then isTrue (h ▸ rfl) else isFalse fun e => h (Except.error.inj e)
  | .ok _, .error _ => isFalse nofun
  | .error _, .ok _ => isFalse nofun

/-- An operation that can only crash, as one that could also report errors. -/
def orCrash {ε α : Type} : Except Crash α → Except (Failure ε) α
  | .ok a => .ok a
  | .error crash => .error (.crash crash)

/-- An operation that only reports errors, as one that could also crash. -/
def orError {ε α : Type} : Except ε α → Except (Failure ε) α
  | .ok a => .ok a
  | .error error => .error (.error error)

end IPPcode24
