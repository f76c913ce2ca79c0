import SourceBundle.Text.Basic

/-!
# Blank characters

The characters that count as white space wherever a text is trimmed or a line is found blank:
the Unicode property `White_Space`.  Neither the zero-width space nor the byte order mark nor
the separators U+001C to U+001F have it.
-/

namespace SourceBundle.Text

/-- The character has the Unicode property `White_Space`. -/
def isBlank (c : Char) : Bool :=
  let n := c.toNat
  (0x09 ≤ n && n ≤ 0x0D) || n == 0x20 || n == 0x85 || n == 0xA0 || n == 0x1680 ||
    (0x2000 ≤ n && n ≤ 0x200A) || n == 0x2028 || n == 0x2029 || n == 0x202F || n == 0x205F ||
    n == 0x3000

/-- The text holds white space only. -/
def allBlank (t : Text) : Bool := t.all isBlank

/-- The text without the white space at its start. -/
def trimStart (t : Text) : Text := t.dropWhile isBlank

/-- The text without the white space at its end. -/
def trimEnd (t : Text) : Text := (t.reverse.dropWhile isBlank).reverse

/-- The text without the white space at its two ends. -/
def trim (t : Text) : Text := trimEnd (trimStart t)

end SourceBundle.Text
