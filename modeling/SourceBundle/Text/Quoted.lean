import SourceBundle.Text.Basic
import SourceBundle.Unicode.Unseen

/-!
# Quoted texts in messages

Messages show a rejected value between double quotes.  The quote, the backslash and the common
control characters are written as escapes, every other character without a visible form of its
own by its hexadecimal code, and the rest as it is.
-/

namespace SourceBundle.Text

open SourceBundle.Unicode

/-- The character has no visible form of its own. -/
def isUnseen (c : Char) : Bool :=
  [unseenFirst, unseenSecond, unseenThird, unseenFourth, unseenFifth].any (inRanges c.toNat)

/-- The form of one character between quotes. -/
def quotedChar (c : Char) : Text :=
  if c = '"' then ['\\', '"']
  else if c = '\\' then ['\\', '\\']
  else if c = '\n' then ['\\', 'n']
  else if c = '\r' then ['\\', 'r']
  else if c = '\t' then ['\\', 't']
  else if c = Char.ofNat 0 then ['\\', '0']
  else if isUnseen c then "\\u\x7b".toList ++ Nat.toDigits 16 c.toNat ++ "\x7d".toList
  else [c]

/-- The text between double quotes. -/
def quoted (t : Text) : Text := '"' :: t.flatMap quotedChar ++ ['"']

end SourceBundle.Text
