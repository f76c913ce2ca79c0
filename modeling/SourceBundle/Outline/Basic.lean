import SourceBundle.Outline.Chunk
import SourceBundle.Outline.Strategy

/-!
# Outlines

The outline of a file is made of what its language keeps of the captures, in the order of their
start rows.  A text that, but for white space around it, has been kept before in the file is not
kept again.
-/

namespace SourceBundle.Outline

/-- The captures in the order of their start rows. -/
def inRowOrder (captures : List Capture) : List Capture :=
  sortBy (fun a b => a.startRow < b.startRow) captures

/-- The chunks of captures; `emitted` are the trimmed texts that have been kept before. -/
def chunksFrom (strategy : Strategy) (rows : List Text) (emitted : List Text) :
    List Capture → List Chunk
  | [] => []
  | c :: rest =>
    match keptText? strategy rows c with
    | none => chunksFrom strategy rows emitted rest
    | some t =>
      let trimmed := Text.trim t
      if emitted.contains trimmed then chunksFrom strategy rows emitted rest
      else
        Chunk.spanning trimmed c.startRow c.endRow ::
          chunksFrom strategy rows (trimmed :: emitted) rest

/-- The chunks of a file before the longest of each row are chosen. -/
def chunks (strategy : Strategy) (t : Text) (captures : List Capture) : List Chunk :=
  chunksFrom strategy (Text.rows t) [] (inRowOrder captures)

/-- The outline of a text in a language with the given captures. -/
def ofText (language : Language) (t : Text) (captures : List Capture) : Text :=
  write (joinAdjacent (longestPerRow (chunks (strategyFor language) t captures)))

end SourceBundle.Outline
