import SourceBundle.Charset.Utf16
import SourceBundle.Charset.Utf8

/-!
# Binary and text contents

The bytes of a file are text or binary.  A byte order mark at the start settles it for UTF-16 and
UTF-32; otherwise a zero byte anywhere, or the signature of a PDF or PNG file, makes the bytes
binary.

Text is read as UTF-8 if it can be, otherwise by its byte order mark, and without one in the
encoding that is guessed for it.  The marks of UTF-32 are not known to this reading: the one for
little-endian bytes begins with the mark of little-endian UTF-16.
-/

namespace SourceBundle.Charset

/-- The bytes start with the given ones. -/
def hasLead (lead : List UInt8) (bytes : ByteArray) : Bool := lead.isPrefixOf bytes.data.toList

/-- The byte order marks of UTF-16 and UTF-32. -/
def wideMarks : List (List UInt8) :=
  [[0x00, 0x00, 0xFE, 0xFF], [0xFF, 0xFE, 0x00, 0x00], [0xFE, 0xFF], [0xFF, 0xFE]]

/-- The byte order mark of UTF-8. -/
def utf8Mark : List UInt8 := [0xEF, 0xBB, 0xBF]

/-- The signatures of PDF and PNG files. -/
def binarySignatures : List (List UInt8) := [[0x25, 0x50, 0x44, 0x46], [0x89, 0x50, 0x4E, 0x47]]

/-- What the bytes at the start of a file say of its content. -/
inductive Kind where
  /-- It is no text. -/
  | binary
  /-- It has the byte order mark of UTF-16 or UTF-32. -/
  | wide
  /-- It has the byte order mark of UTF-8. -/
  | marked
  /-- Nothing speaks against UTF-8. -/
  | plain
  deriving DecidableEq, Repr

/-- The kind of the bytes at the start of a file. -/
def kindOf (bytes : ByteArray) : Kind :=
  if hasLead utf8Mark bytes then .marked
  else if wideMarks.any (hasLead · bytes) then .wide
  else if bytes.data.contains 0 || binarySignatures.any (hasLead · bytes) then .binary
  else .plain

/-- The number of bytes at the start of a file by which its kind is told. -/
def peekSize : Nat := 1024

/-- The bytes are not those of a text: their start tells so, or a zero byte anywhere when their
start leaves it open. -/
def isBinary (bytes : ByteArray) : Bool :=
  match kindOf (bytes.extract 0 peekSize) with
  | .binary => true
  | .wide => false
  | .marked | .plain => bytes.data.contains 0

/-- What a guess at an unknown encoding comes to. -/
inductive Guess where
  /-- The bytes read in the guessed encoding. -/
  | text (t : Text)
  /-- The bytes are not valid in the guessed encoding, whose name is given. -/
  | malformed (encoding : Text)
  deriving DecidableEq, Repr

/-- The character that marks the byte order. -/
def orderMark : Char := Char.ofNat 0xFEFF

/-- A text without a mark at its start. -/
def dropMark (t : Text) : Text := (Text.after? [orderMark] t).getD t

/-- Reads bytes as text, or names the encoding in which they are not valid.  `guess` is asked for
bytes that are neither UTF-8 nor marked. -/
def decode (guess : ByteArray → Guess) (bytes : ByteArray) : Except Text Text :=
  match utf8? bytes with
  | some t => .ok (dropMark t)
  | none =>
    match bytes.data.toList with
    | 0xFF :: 0xFE :: rest =>
      ((utf16? .littleEndian rest).map Except.ok).getD (.error "UTF-16LE".toList)
    | 0xFE :: 0xFF :: rest =>
      ((utf16? .bigEndian rest).map Except.ok).getD (.error "UTF-16BE".toList)
    | 0xEF :: 0xBB :: 0xBF :: _ => .error "UTF-8".toList
    | _ =>
      match guess bytes with
      | .text t => .ok t
      | .malformed encoding => .error encoding

end SourceBundle.Charset
