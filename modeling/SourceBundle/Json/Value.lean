import SourceBundle.Text.Basic

/-!
# JSON values and their texts

Results and errors are shown as JSON, on one line or over several with an indentation of two
spaces.  The members of an object keep the order in which they are listed.
-/

namespace SourceBundle

/-- A JSON value whose numbers are natural. -/
inductive Json where
  | null
  | bool (b : Bool)
  | number (n : Nat)
  | text (t : Text)
  | list (items : List Json)
  | object (members : List (Text × Json))

namespace Json

/-- A character between quotes: the quote, the backslash and control characters are escaped. -/
def escapedChar (c : Char) : Text :=
  if c = '"' then ['\\', '"']
  else if c = '\\' then ['\\', '\\']
  else if c.toNat = 0x08 then ['\\', 'b']
  else if c.toNat = 0x0C then ['\\', 'f']
  else if c = '\n' then ['\\', 'n']
  else if c = '\r' then ['\\', 'r']
  else if c = '\t' then ['\\', 't']
  else if c.toNat < 0x20 then
    ['\\', 'u', '0', '0', Nat.digitChar (c.toNat / 16), Nat.digitChar (c.toNat % 16)]
  else [c]

/-- A text between quotes. -/
def quote (t : Text) : Text := '"' :: t.flatMap escapedChar ++ ['"']

/-- The text of a truth value. -/
def boolText (b : Bool) : Text := if b then "true".toList else "false".toList

mutual

/-- The value on one line, without spaces. -/
def compact : Json → Text
  | .null => "null".toList
  | .bool b => boolText b
  | .number n => Text.numeral n
  | .text t => quote t
  | .list items => '[' :: compactItems items
  | .object members => '\x7b' :: compactMembers members

/-- Items and the bracket that ends them. -/
def compactItems : List Json → Text
  | [] => [']']
  | [item] => compact item ++ [']']
  | item :: rest => compact item ++ [','] ++ compactItems rest

/-- Members and the brace that ends them. -/
def compactMembers : List (Text × Json) → Text
  | [] => ['\x7d']
  | [(key, value)] => quote key ++ [':'] ++ compact value ++ ['\x7d']
  | (key, value) :: rest => quote key ++ [':'] ++ compact value ++ [','] ++ compactMembers rest

end

/-- A new line at a depth of nesting. -/
def newLine (depth : Nat) : Text := '\n' :: List.replicate (2 * depth) ' '

mutual

/-- The value over several lines, its first line starting at the given depth. -/
def prettyAt (depth : Nat) : Json → Text
  | .null => "null".toList
  | .bool b => boolText b
  | .number n => Text.numeral n
  | .text t => quote t
  | .list [] => ['[', ']']
  | .list (item :: items) => '[' :: prettyItems depth (item :: items)
  | .object [] => ['\x7b', '\x7d']
  | .object (member :: members) => '\x7b' :: prettyMembers depth (member :: members)

/-- Items on lines of their own and the bracket that ends them. -/
def prettyItems (depth : Nat) : List Json → Text
  | [] => [']']
  | [item] => newLine (depth + 1) ++ prettyAt (depth + 1) item ++ newLine depth ++ [']']
  | item :: rest => newLine (depth + 1) ++ prettyAt (depth + 1) item ++ [','] ++
      prettyItems depth rest

/-- Members on lines of their own and the brace that ends them. -/
def prettyMembers (depth : Nat) : List (Text × Json) → Text
  | [] => ['\x7d']
  | [(key, value)] => newLine (depth + 1) ++ quote key ++ [':', ' '] ++
      prettyAt (depth + 1) value ++ newLine depth ++ ['\x7d']
  | (key, value) :: rest => newLine (depth + 1) ++ quote key ++ [':', ' '] ++
      prettyAt (depth + 1) value ++ [','] ++ prettyMembers depth rest

end

/-- The value over several lines. -/
def pretty (value : Json) : Text := prettyAt 0 value

end Json

end SourceBundle
