import IPPcode24.Text

/-!
# Bytes of a text

Texts leave and enter as UTF-8. Every text has bytes; bytes that are not the
bytes of a text are refused as a whole.
-/

namespace IPPcode24.Text

def utf8 (text : Text) : List UInt8 := text.flatMap String.utf8EncodeChar

/-- The text with these UTF-8 bytes, if there is one. -/
def ofUtf8? (bytes : List UInt8) : Option Text :=
  bytes.toByteArray.utf8Decode?.map Array.toList

def byteCount (text : Text) : Nat :=
  text.foldr (fun c count => c.utf8Size + count) 0

theorem ofUtf8?_utf8 (text : Text) : ofUtf8? (utf8 text) = some text := by
  have encoded : (utf8 text).toByteArray = text.utf8Encode := rfl
  simp [ofUtf8?, encoded]

theorem utf8_append (a b : Text) : utf8 (a ++ b) = utf8 a ++ utf8 b := by
  simp [utf8]

theorem length_utf8 (text : Text) : (utf8 text).length = byteCount text := by
  induction text with
  | nil => rfl
  | cons c rest ih =>
    rw [show utf8 (c :: rest) = String.utf8EncodeChar c ++ utf8 rest from rfl,
      List.length_append, String.length_utf8EncodeChar, ih]
    rfl

theorem byteCount_append (a b : Text) : byteCount (a ++ b) = byteCount a + byteCount b := by
  rw [← length_utf8, utf8_append, List.length_append, length_utf8, length_utf8]

end IPPcode24.Text
