import SourceBundle.Text.Basic

/-!
# UTF-8

The reading of bytes as UTF-8, and the bytes of a text.  A byte buffer has at most one reading, and
the bytes of a text are read as that text (`utf8?_utf8Bytes`).
-/

namespace SourceBundle.Charset

/-- The bytes of a text in UTF-8. -/
def utf8Bytes (t : Text) : ByteArray := (String.ofList t).toUTF8

/-- The text of which the bytes are the UTF-8 form. -/
def utf8? (bytes : ByteArray) : Option Text := (String.fromUTF8? bytes).map String.toList

/-- The same for bytes in a list. -/
def utf8OfList? (bytes : List UInt8) : Option Text := utf8? ⟨bytes.toArray⟩

/-- The bytes of a text, one after the other. -/
def utf8List (t : Text) : List UInt8 := t.flatMap String.utf8EncodeChar

theorem utf8?_utf8Bytes (t : Text) : utf8? (utf8Bytes t) = some t := by
  unfold utf8? utf8Bytes String.fromUTF8?
  split
  · exact congrArg some (String.toList_ofList (l := t))
  · rename_i h
    exact absurd (String.ofList t).isValidUTF8 h

end SourceBundle.Charset
