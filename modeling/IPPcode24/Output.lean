import IPPcode24.Text.Utf8

/-!
# Output

Texts are written to a sink of which only the behaviour is known. What the sink does with
a request may depend on all the earlier ones, so it may refuse a text now and take it
later, and flush at one time and not at another. Of a text that it refuses it may have
kept a part.
-/

namespace IPPcode24

/-- Why a sink did not take a text or did not flush. -/
structure OutputError where
  message : String
deriving DecidableEq

/-- What came of a request to a sink. -/
inductive Reception where
  | taken (text : Text)
  | refused (text : Text) (error : OutputError) (kept : Text)
  | flushed
  | unflushed (error : OutputError)
deriving DecidableEq

/-- What a request has left in the sink. -/
def Reception.kept : Reception → Text
  | taken text => text
  | refused _ _ kept => kept
  | flushed | unflushed _ => []

/-- What a sink holds after these requests, the latest first. -/
def Reception.contents (past : List Reception) : Text := (past.map kept).reverse.flatten

/-- The behaviour of a sink, given what came of the earlier requests, the latest first. -/
structure Sink where
  /-- Why a text is refused, and what is kept of it all the same. -/
  refusal? : List Reception → Text → Option (OutputError × Text)
  /-- Why a flush fails. -/
  flushError? : List Reception → Option OutputError

/-- A sink in use, with what came of the requests so far, the latest first. -/
structure Output where
  sink : Sink
  past : List Reception

namespace Output

/-- Everything written so far. -/
def text (output : Output) : Text := Reception.contents output.past

def write (output : Output) (text : Text) : Except OutputError Unit × Output :=
  match output.sink.refusal? output.past text with
  | none => (.ok (), { output with past := .taken text :: output.past })
  | some (error, kept) =>
    (.error error, { output with past := .refused text error kept :: output.past })

def flush (output : Output) : Except OutputError Unit × Output :=
  match output.sink.flushError? output.past with
  | none => (.ok (), { output with past := .flushed :: output.past })
  | some error => (.error error, { output with past := .unflushed error :: output.past })

end Output

namespace Sink

/-- The sink that takes everything. -/
def unbounded : Sink := ⟨fun _ _ => none, fun _ => none⟩

/-- The sink that refuses, keeping nothing of it, a text with which its bytes would be more
than the bound. It never flushes if there is an error for that. -/
def bounded (limit : Nat) (full : OutputError) (flushError? : Option OutputError) : Sink where
  refusal? past text :=
    if Text.byteCount (Reception.contents past) + Text.byteCount text ≤ limit then none
    else some (full, [])
  flushError? _ := flushError?

/-- A sink before the first request. -/
def fresh (sink : Sink) : Output := ⟨sink, []⟩

end Sink

def Output.unbounded : Output := Sink.unbounded.fresh

end IPPcode24
