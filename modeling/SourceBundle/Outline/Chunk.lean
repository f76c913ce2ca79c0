import SourceBundle.Sorting
import SourceBundle.Text.Blank

/-!
# Chunks of an outline

A chunk is a piece of text that an outline keeps, with the rows it comes from.  Of chunks that
start on one row the longest is kept, and chunks whose rows follow directly upon each other are
joined.
-/

namespace SourceBundle.Outline

/-- A piece of text kept from the rows `startRow` to `endRow`. -/
structure Chunk where
  content : Text
  startRow : Nat
  endRow : Nat
  deriving DecidableEq, Repr

/-- A chunk that ends at `endRow`, or on its first row if that comes later. -/
def Chunk.spanning (content : Text) (startRow endRow : Nat) : Chunk :=
  ⟨content, startRow, max endRow startRow⟩

/-- Puts a chunk into a list with increasing start rows.  A chunk with the same start row gives way
only to a longer one. -/
def place (chunk : Chunk) : List Chunk → List Chunk
  | [] => [chunk]
  | kept :: rest =>
    if chunk.startRow < kept.startRow then chunk :: kept :: rest
    else if kept.startRow < chunk.startRow then kept :: place chunk rest
    else if kept.content.length < chunk.content.length then chunk :: rest
    else kept :: rest

/-- The longest chunk of each start row, in the order of the rows; of equally long ones the
first. -/
def longestPerRow (chunks : List Chunk) : List Chunk :=
  chunks.foldl (fun kept chunk => place chunk kept) []

/-- The row after a row.  Rows have numbers of 64 bits, and the last one is followed by row 0. -/
def rowAfter (row : Nat) : Nat := (row + 1) % UInt64.size

/-- The chunks with `head` in front of them, which takes in the chunks that follow directly upon
it. -/
def joinOnto (head : Chunk) : List Chunk → List Chunk
  | [] => [head]
  | chunk :: rest =>
    if rowAfter head.endRow = chunk.startRow then
      joinOnto ⟨head.content ++ '\n' :: chunk.content, head.startRow, chunk.endRow⟩ rest
    else head :: joinOnto chunk rest

/-- The chunks with those joined that follow directly upon each other. -/
def joinAdjacent : List Chunk → List Chunk
  | [] => []
  | chunk :: rest => joinOnto chunk rest

/-- The line between chunks that are not adjacent. -/
def separator : Text := ":----".toList

/-- Chunks written one below the other. -/
def write (chunks : List Chunk) : Text :=
  Text.trim (Text.join ('\n' :: separator ++ ['\n']) (chunks.map Chunk.content))

end SourceBundle.Outline
