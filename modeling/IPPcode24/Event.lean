import IPPcode24.Fault

/-!
# Events

What a run tells about itself, with the level of each event and the line that
reports it.
-/

namespace IPPcode24

/-- The weight of an event, the heaviest first. -/
inductive Level where
  | error
  | warn
  | info
  | debug
  | trace
deriving DecidableEq

namespace Level

def all : List Level := [error, warn, info, debug, trace]

def name : Level → String
  | error => "error"
  | warn => "warn"
  | info => "info"
  | debug => "debug"
  | trace => "trace"

def ofName? (name : Text) : Option Level := all.find? fun level => level.name.toList == name

def label : Level → String
  | error => "ERROR"
  | warn => "WARN"
  | info => "INFO"
  | debug => "DEBUG"
  | trace => "TRACE"

/-- Whether events of a level are kept when the lightest kept level is given. -/
def keeps (lightest level : Level) : Bool := level.ctorIdx ≤ lightest.ctorIdx

end Level

/-- What happens in a run. Places are those of the instructions; the depths are
those after the event. -/
inductive Event where
  | started (instructions labels : Nat)
  | dispatched (place : Nat) (opcode : Opcode)
  | frameCreated (place : Nat)
  | framePushed (place depth : Nat)
  | framePopped (place depth : Nat)
  | called (place target depth : Nat)
  | returned (place target depth : Nat)
  | printed (place : Nat) (operand : Operand)
  | inspected (place steps globals : Nat) (temporary : Bool) (locals calls : Nat)
  | finished (code steps : Nat)
  | aborted (error : RunError) (steps : Nat)
deriving DecidableEq

namespace Event

def level : Event → Level
  | started _ _ => .info
  | dispatched _ _ => .trace
  | finished _ _ => .info
  | aborted _ _ => .warn
  | _ => .debug

/-- What happened, and its particulars. -/
def report : Event → String
  | started instructions labels =>
    s!"run started instructions={instructions} labels={labels}"
  | dispatched place opcode => s!"dispatch pc={place} opcode={opcode.mnemonic}"
  | frameCreated place => s!"temporary frame created pc={place}"
  | framePushed place depth => s!"frame pushed pc={place} depth={depth}"
  | framePopped place depth => s!"frame popped pc={place} depth={depth}"
  | called place target depth => s!"call pc={place} target={target} depth={depth}"
  | returned place target depth => s!"return pc={place} target={target} depth={depth}"
  | printed place operand =>
    s!"DPRINT pc={place} operand={Text.shown operand.source}"
  | inspected place steps globals temporary locals calls =>
    let holds := if temporary then "true" else "false"
    let frames := s!"globals={globals} temporary={holds} locals={locals}"
    s!"BREAK pc={place} steps={steps} {frames} calls={calls}"
  | finished code steps => s!"run finished code={code} steps={steps}"
  | aborted error steps =>
    s!"run aborted error={error.message} code={error.exitCode} steps={steps}"

def line (event : Event) : String := s!"{event.level.label} {event.report}"

end Event

end IPPcode24
