import SourceBundle.Text.Lines

/-!
# Captures

A grammar marks stretches of a file and gives each a role: a declaration, a comment, an import.
Outlines depend on the grammar through these captures alone.
-/

namespace SourceBundle.Outline

/-- A stretch of a file with a role.  Rows are counted from zero. -/
structure Capture where
  role : Text
  startRow : Nat
  /-- The row and the column in bytes at which the stretch ends. -/
  stopRow : Nat
  stopColumn : Nat
  /-- The row of the colon that ends a declaration's header, where the grammar finds one. -/
  colonRow : Option Nat
  deriving DecidableEq, Repr

namespace Capture

/-- The last row that holds text of the stretch: one that ends at the start of a row stops on the
row before. -/
def endRow (c : Capture) : Nat :=
  if c.stopColumn = 0 ∧ c.startRow < c.stopRow then c.stopRow - 1 else c.stopRow

/-- The row on which a declaration's header ends. -/
def headerRow (c : Capture) : Nat := c.colonRow.getD c.startRow

/-- The role has the given word in it. -/
def isA (c : Capture) (word : String) : Bool := Text.mentions word.toList c.role

/-- The role has one of the given words in it. -/
def isOneOf (c : Capture) (words : List String) : Bool := words.any c.isA

end Capture

end SourceBundle.Outline
