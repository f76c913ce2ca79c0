import SourceBundle.Text.Quoted

/-!
# Glob patterns

Include and ignore patterns are globs over root-relative paths.  `?` stands for one character and
`*` for any run of characters, neither of them a slash; `**` stands for any number of whole path
components and has to be a component of its own; a bracketed class stands for one of its members,
or with a leading `!` for one character outside it.  There is no escape character: a bracket is
made literal by putting it into a class of its own.

A pattern text is read from left to right and the first fault decides (`Pattern.ofText`).
-/

namespace SourceBundle.Glob

/-- One member of a character class. -/
inductive Member where
  | single (c : Char)
  | range (first last : Char)
  deriving DecidableEq, Repr

/-- One element of a pattern. -/
inductive Token where
  | literal (c : Char)
  | anyChar
  | anyRun
  | anyComponents
  | oneOf (members : List Member)
  | noneOf (members : List Member)
  deriving DecidableEq, Repr

/-- A pattern that has been read: its elements in order. -/
abbrev Pattern := List Token

/-- Why a text is no pattern. -/
inductive Fault where
  | tooManyStars
  | looseRecursion
  | openClass
  deriving DecidableEq, Repr

/-- The wording of a fault. -/
def Fault.message : Fault → String
  | .tooManyStars => "wildcards are either regular `*` or recursive `**`"
  | .looseRecursion => "recursive wildcards must form a single path component"
  | .openClass => "invalid range pattern"

/-- A text that is no pattern, with the reason. -/
structure Invalid where
  pattern : Text
  fault : Fault
  deriving DecidableEq, Repr

/-- The wording used wherever an invalid pattern is reported. -/
def Invalid.message (e : Invalid) : String :=
  "invalid glob pattern " ++ String.ofList (Text.quoted e.pattern) ++ ": " ++ e.fault.message

/-! ## Reading -/

/-- The members that the inside of a class lists: a hyphen between two characters makes a range. -/
def members : Text → List Member
  | a :: '-' :: b :: rest => .range a b :: members rest
  | c :: rest => .single c :: members rest
  | [] => []

/-- A recursive wildcard may begin at the start of the pattern and after a slash. -/
def opensComponent : Option Char → Bool
  | none => true
  | some c => c == '/'

mutual

/-- The elements of a pattern text that stands after the character `prev`. -/
def tokensAfter (prev : Option Char) : Text → Except Fault Pattern
  | [] => .ok []
  | '*' :: '*' :: '*' :: _ => .error .tooManyStars
  | ['*', '*'] => if opensComponent prev then .ok [.anyComponents] else .error .looseRecursion
  | '*' :: '*' :: '/' :: rest =>
    if opensComponent prev then (tokensAfter (some '/') rest).map (.anyComponents :: ·)
    else .error .looseRecursion
  | '*' :: '*' :: _ :: _ => .error .looseRecursion
  | '*' :: rest => (tokensAfter (some '*') rest).map (.anyRun :: ·)
  | '?' :: rest => (tokensAfter (some '?') rest).map (.anyChar :: ·)
  | '[' :: '!' :: c :: rest => classTokens .noneOf [c] rest
  | ['[', '!'] => .error .openClass
  | '[' :: c :: rest => classTokens .oneOf [c] rest
  | ['['] => .error .openClass
  | c :: rest => (tokensAfter (some c) rest).map (.literal c :: ·)

/-- The elements from the inside of a class on.  The class's characters so far, of which there is
at least one, are `read`, the last one first; the next closing bracket ends it. -/
def classTokens (kind : List Member → Token) (read : Text) : Text → Except Fault Pattern
  | [] => .error .openClass
  | ']' :: rest => (tokensAfter (some ']') rest).map (kind (members read.reverse) :: ·)
  | c :: rest => classTokens kind (c :: read) rest

end

/-- Reads a pattern. -/
def Pattern.ofText (t : Text) : Except Invalid Pattern :=
  (tokensAfter none t).mapError fun fault => ⟨t, fault⟩

/-- The text is a pattern. -/
def isPattern (t : Text) : Bool :=
  match tokensAfter none t with
  | .ok _ => true
  | .error _ => false

/-! ## Literal brackets -/

/-- A character with brackets put into classes of their own. -/
def escapeChar (c : Char) : Text :=
  if c = '[' then ['[', '[', ']'] else if c = ']' then ['[', ']', ']'] else [c]

/-- The pattern text in which the brackets of `t` stand for themselves. -/
def escapeBrackets (t : Text) : Text := t.flatMap escapeChar

end SourceBundle.Glob
