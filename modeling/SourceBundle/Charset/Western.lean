import SourceBundle.Charset.Content

/-!
# Windows-1252

The reading of bytes of which nothing else is known: every byte is a character.  All bytes but
those from 0x80 to 0x9F stand for the character of the same code.
-/

namespace SourceBundle.Charset

/-- The codes of the bytes from 0x80 to 0x9F. -/
def westernHigh : List Nat :=
  [0x20AC, 0x81, 0x201A, 0x192, 0x201E, 0x2026, 0x2020, 0x2021, 0x2C6, 0x2030, 0x160, 0x2039,
   0x152, 0x8D, 0x17D, 0x8F, 0x90, 0x2018, 0x2019, 0x201C, 0x201D, 0x2022, 0x2013, 0x2014, 0x2DC,
   0x2122, 0x161, 0x203A, 0x153, 0x9D, 0x17E, 0x178]

/-- The character of a byte. -/
def westernChar (b : UInt8) : Char :=
  let n := b.toNat
  if 0x80 ≤ n ∧ n < 0xA0 then Char.ofNat (westernHigh.getD (n - 0x80) n) else Char.ofNat n

/-- Reads every byte as a character. -/
def westernGuess (bytes : ByteArray) : Guess := .text (bytes.data.toList.map westernChar)

end SourceBundle.Charset
