import IPPcode24.Program

/-!
# Rendering

A program as source text: the header, then its instructions in order, one on each
line.
-/

namespace IPPcode24.Program

/-- The source text of a program. -/
def render (program : Program) : Text :=
  ".IPPcode24\n".toList ++
    program.instructions.flatMap fun instruction => instruction.source ++ ['\n']

end IPPcode24.Program
