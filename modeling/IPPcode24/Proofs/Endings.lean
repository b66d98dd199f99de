import IPPcode24.Proofs.Divided
import IPPcode24.Proofs.Steps
import IPPcode24.Proofs.Symbols

/-!
# Endings that never come

A step crashes only when the text of a number is divided, so it never asks for an
operand that is not there. The faults that are called internal never come up as long
as every text that an instruction can meet has a length that is a 64-bit integer.
-/

namespace IPPcode24

/-- Every text that an instruction can meet has a length that is a 64-bit integer. -/
structure ShortTexts (program : Program) (machine : Machine) : Prop where
  operands : ∀ instruction ∈ program.instructions, ∀ operand ∈ instruction.operands,
    operand.text.length < 0x8000000000000000
  contents : ∀ ref text, machine.frames.get ref = .ok (.string text) →
    text.length < 0x8000000000000000

section Failing

variable {program : Program} {machine : Machine}

theorem Failing.crash_eq {crash : Crash} (failing : Failing program machine (.crash crash)) :
    crash = .dividedCharacter := by
  cases failing with
  | planless dispatched failed =>
    cases obstacle_of_plan failed with
    | unresolved argument symbol unresolved =>
      cases unresolved with
      | crashed isLiteral crashed => exact (Literal.decode_eq_error.mp crashed).1
  | refused dispatched planned refusal =>
    cases refusal with
    | readCrash crashed => exact (Input.read_eq_error.mp crashed).1

/-- No instruction fails with an internal fault while all texts are short. -/
theorem not_failing_internal (short : ShortTexts program machine) (fault : InternalFault) :
    ¬ Failing program machine (.error (.internal fault)) := by
  intro failing
  generalize same : Fault.internal fault = reported at failing
  have notFrame (error : FrameError) : Fault.internal fault ≠ error.fault := by
    cases error <;> exact nofun
  cases failing with
  | unknown fetched unknown => cases same
  | planless dispatched failed =>
    cases obstacle_of_plan failed with
    | fewOperands few => cases same
    | wrongClass hslot hoperand refused => cases same
    | wrongThird third past refused => cases same
    | noLabel first unknown => cases same
    | noTarget first slot unreadable => cases same
    | unresolved argument symbol unresolved =>
      cases unresolved with
      | notVariable unreadable isVar => cases same
      | unavailable readable refused => exact notFrame _ same
      | missing declared => cases same
      | notLiteral isLiteral undecoded => cases same
      | noSymbol other =>
        rw [symbol] at other
        cases other
    | complaint found complaint =>
      cases complaint with
      | @tooLong text takes given long =>
        obtain ⟨operand, argument, found⟩ := found _ given
        have fetched := List.mem_of_getElem? dispatched.fetched
        have bound : text.length < 0x8000000000000000 := by
          rcases text_of_lookUp found with rfl | ⟨ref, content⟩
          · exact short.operands _ fetched _ (Action.mem_of_mem_arguments argument)
          · exact short.contents ref text content
        omega
      | _ => cases same
  | refused dispatched planned refusal =>
    cases refusal with
    | write refused => cases same
    | ret empty => cases same
    | readTarget unreadable => cases same
    | _ => exact notFrame _ same

end Failing

end IPPcode24
