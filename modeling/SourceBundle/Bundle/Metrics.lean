import SourceBundle.Bundle.Counts
import SourceBundle.Document.Parts
import SourceBundle.Text.Lines

/-!
# Metrics

The size of each file and of the whole document, in characters and in tokens.
-/

namespace SourceBundle

/-- Counts tokens.  The counts may come from elsewhere, so a counter is told which of the files it
is asked about. -/
structure TokenCounter where
  /-- The tokens of the file at a position in the list of files. -/
  file : Nat → Text → Nat
  /-- The tokens of the document. -/
  document : Text → Nat

/-- The size of a file. -/
structure FileSize where
  file : TextFile
  lines : Nat
  characters : Nat
  bytes : Nat
  deriving DecidableEq, Repr

/-- The size of a file. -/
def TextFile.size (f : TextFile) : FileSize :=
  ⟨f, Text.rowCount f.content, f.content.length, Text.byteSize f.content⟩

/-- The characters and tokens of one file. -/
structure FileCount where
  path : Text
  characters : Nat
  tokens : Nat
  deriving DecidableEq, Repr

/-- The characters and tokens of a document and of its files. -/
structure Metrics where
  totalFiles : Nat
  totalCharacters : Nat
  totalTokens : Nat
  charactersByPath : Counts
  tokensByPath : Counts
  deriving DecidableEq, Repr

namespace Metrics

/-- The counts of the files from position `index` on. -/
def fileCounts (counter : TokenCounter) (index : Nat) : List TextFile → List FileCount
  | [] => []
  | f :: rest =>
    ⟨f.path, f.content.length, counter.file index f.content⟩ ::
      fileCounts counter (index + 1) rest

/-- The metrics of a document and its files. -/
def measure (counter : TokenCounter) (files : List TextFile) (document : Text) : Metrics :=
  let counts := fileCounts counter 0 files
  { totalFiles := files.length
    totalCharacters := document.length
    totalTokens := counter.document document
    charactersByPath := Counts.ofList (counts.map fun c => (c.path, c.characters))
    tokensByPath := Counts.ofList (counts.map fun c => (c.path, c.tokens)) }

/-- The `n` files with the most tokens. -/
def topFiles (m : Metrics) (n : Nat) : List (Text × Nat) := m.tokensByPath.top n

end Metrics

end SourceBundle
