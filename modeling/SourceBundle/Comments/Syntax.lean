import SourceBundle.Text.Basic

/-!
# Comment syntaxes

For the removal of comments a family of languages is described by the marks that open comments and
the quotes that enclose literals.  Marks inside literals open no comment.
-/

namespace SourceBundle.Comments

/-- The quotes around a literal.  Inside, a backslash takes the next character with it. -/
inductive Quote where
  /-- The literal ends on its line. -/
  | inLine (delimiter : Text)
  /-- The literal may go over several lines. -/
  | acrossLines (delimiter : Text)
  /-- One character or one escape between single quotes; a single quote in front of a name that is
  not closed right after one character is no quote. -/
  | character
  deriving DecidableEq, Repr

/-- The marks and quotes of a family of languages. -/
structure Syntax where
  /-- What opens a comment that ends with its line. -/
  lineMarks : List Text
  /-- What opens and closes a comment that may go over several lines. -/
  blocks : List (Text × Text)
  quotes : List Quote
  /-- A first line that names an interpreter is kept. -/
  keepsShebang : Bool
  /-- A literal across lines with nothing before it on its line is documentation and removed. -/
  dropsStatementTexts : Bool
  deriving DecidableEq, Repr

/-- The delimiter with which a literal begins. -/
def Quote.delimiter : Quote → Text
  | .inLine delimiter => delimiter
  | .acrossLines delimiter => delimiter
  | .character => ['\'']

namespace Syntax

/-- Languages with the comments of C and strings in double, single and back quotes. -/
def cStyle : Syntax where
  lineMarks := ["//".toList]
  blocks := [("/*".toList, "*/".toList)]
  quotes := [.inLine ['"'], .acrossLines [Char.ofNat 0x60], .inLine ['\'']]
  keepsShebang := true
  dropsStatementTexts := false

/-- Rust, where a single quote also begins lifetimes and labels. -/
def rust : Syntax where
  lineMarks := ["//".toList]
  blocks := [("/*".toList, "*/".toList)]
  quotes := [.inLine ['"'], .character]
  keepsShebang := true
  dropsStatementTexts := false

/-- Style sheets. -/
def css : Syntax where
  lineMarks := []
  blocks := [("/*".toList, "*/".toList)]
  quotes := [.inLine ['"'], .inLine ['\'']]
  keepsShebang := false
  dropsStatementTexts := false

/-- Languages whose comments begin with a number sign. -/
def hash : Syntax where
  lineMarks := [['#']]
  blocks := []
  quotes := [.inLine ['"'], .inLine ['\'']]
  keepsShebang := true
  dropsStatementTexts := false

/-- Python. -/
def python : Syntax where
  lineMarks := [['#']]
  blocks := []
  quotes := [.acrossLines ['"', '"', '"'], .acrossLines ['\'', '\'', '\''], .inLine ['"'],
    .inLine ['\'']]
  keepsShebang := true
  dropsStatementTexts := true

/-- Markup languages. -/
def markup : Syntax where
  lineMarks := []
  blocks := [("<!--".toList, "-->".toList)]
  quotes := []
  keepsShebang := false
  dropsStatementTexts := false

/-- SQL. -/
def sql : Syntax where
  lineMarks := ["--".toList]
  blocks := [("/*".toList, "*/".toList)]
  quotes := [.inLine ['\''], .inLine ['"']]
  keepsShebang := false
  dropsStatementTexts := false

/-- Lua. -/
def lua : Syntax where
  lineMarks := ["--".toList]
  blocks := [("--[[".toList, "]]".toList)]
  quotes := [.inLine ['"'], .inLine ['\'']]
  keepsShebang := true
  dropsStatementTexts := false

/-- Haskell and its relatives. -/
def haskell : Syntax where
  lineMarks := ["--".toList]
  blocks := [("\x7b-".toList, "-\x7d".toList)]
  quotes := [.inLine ['"']]
  keepsShebang := true
  dropsStatementTexts := false

end Syntax

end SourceBundle.Comments
