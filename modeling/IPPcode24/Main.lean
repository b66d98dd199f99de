import IPPcode24.Command

/-!
# Command line

Reads what a command needs, lets the command answer, and writes the answer.
-/

namespace IPPcode24.Main

/-- Everything up to the end of a stream. -/
partial def readAll (stream : IO.FS.Stream) (bytes : ByteArray) : IO ByteArray := do
  let more ← stream.read 65536
  if more.isEmpty then return bytes else readAll stream (bytes ++ more)

/-- The number of a system error; it may be reported below zero, which a word shows as
its distance from the top. -/
def errorNumber (code : UInt32) : Nat := min code.toNat (0x100000000 - code.toNat)

/-- What a path leads to when reading it ends in a system error. -/
def failedState (code : UInt32) (reason : String) : FileState :=
  match errorNumber code with
  | 2 => .nowhere .missing
  | 20 => .nowhere .notDirectory
  | 21 => .directory
  | 36 => .nowhere .nameTooLong
  | number => .nowhere (.other s!"{reason.capitalize} (os error {number})")

def fileState (path : Text) : IO FileState := do
  try
    let bytes ← IO.FS.readBinFile (Text.shown path)
    return .content bytes.toList
  catch
    | .noFileOrDirectory _ code reason | .inappropriateType _ code reason
    | .invalidArgument _ code reason | .permissionDenied _ code reason =>
      return failedState code reason
    | error => return .nowhere (.other (toString error))

/-- The file that a source names: none for standard input. -/
def sourceFile (source : Text) : List Text :=
  if Surroundings.isStdin source then [] else [source]

/-- The files that a command may read. -/
def fileNames : Command → List Text
  | .help => []
  | .run source input => sourceFile source ++ input.toList
  | .check source => sourceFile source
  | .list source _ => sourceFile source

/-- Whether a command may read standard input. -/
def readsStdin : Command → Bool
  | .help => false
  | .run source input => Surroundings.isStdin source || input.isNone
  | .check source => Surroundings.isStdin source
  | .list source _ => Surroundings.isStdin source

/-- What a command may read. -/
def surroundings (command : Command) : IO Surroundings := do
  let states ← (fileNames command).mapM fun name => do return (name, ← fileState name)
  let stdin ← if readsStdin command then readAll (← IO.getStdin) .empty else pure .empty
  return ⟨fun name => (states.lookup name).getD (.nowhere .missing), stdin.toList⟩

end IPPcode24.Main

open IPPcode24 in
def main (arguments : List String) : IO UInt32 := do
  let arguments := arguments.map String.toList
  let surroundings ← match Command.parse arguments with
    | .ok command => Main.surroundings command
    | .error _ => pure ⟨fun _ => .nowhere .missing, []⟩
  match Command.answer unlimited surroundings arguments with
  | some (.ok response) =>
    IO.print (Text.shown response.stdout)
    IO.eprint (Text.shown response.stderr)
    return response.code.toUInt32
  | _ => return 101
