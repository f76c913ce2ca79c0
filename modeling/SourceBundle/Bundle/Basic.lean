import SourceBundle.Bundle.Error
import SourceBundle.Bundle.Metrics
import SourceBundle.Bundle.Processing
import SourceBundle.Bundle.Progress
import SourceBundle.Charset.Western
import SourceBundle.Document.Basic

/-!
# Bundles

A bundle is made in stages from the files below one or more root directories: they are searched
for, sorted, read, processed and written into one document, and the document is measured.  The
paths of all roots are sorted together and given back to their roots, so files come root by root
and in one order within each.

Three kinds of knowledge come from outside (`Analysis`): what a grammar captures in a file, how
bytes in an unknown encoding are read, and how many tokens a text has.
-/

namespace SourceBundle

/-- Knowledge about files that comes from outside. -/
structure Analysis where
  /-- The captures in a text of the file at a path below a root. -/
  captures : (root path content : Text) → List Outline.Capture
  /-- The reading of the bytes of that file in a guessed encoding. -/
  guess : (root path : Text) → ByteArray → Charset.Guess
  /-- The counter for a token encoding. -/
  counter : Encoding → TokenCounter

/-- No knowledge: no captures, every byte read as a character, and no tokens. -/
def Analysis.none : Analysis where
  captures _ _ _ := []
  guess _ _ := Charset.westernGuess
  counter _ := ⟨fun _ _ => 0, fun _ => 0⟩

namespace Bundle

/-! ## Searching -/

/-- What searches below several roots find, root by root. -/
def searchAll (tree : Folder) (roots : List Text) (s : Settings) :
    Except Error (List Search.Found) :=
  if roots.isEmpty then .error .noRoots
  else Progress.tryAll (fun root => (Search.run tree root s).mapError .search) roots

/-- The paths of all roots, one root after the other. -/
def discover (tree : Folder) (roots : List Text) (s : Settings) : Except Error Search.Found :=
  (searchAll tree roots s).map fun found =>
    ⟨found.flatMap Search.Found.files, found.flatMap Search.Found.emptyDirs⟩

/-- The directory listing of all roots. -/
def listing (tree : Folder) (roots : List Text) (s : Settings) : Except Error Text :=
  (discover tree roots s).map fun found =>
    Document.listing s.output found.files found.emptyDirs

/-- The files of one root. -/
structure Group where
  root : Text
  files : List Text
  deriving DecidableEq, Repr

/-- A group for each root, with those of the sorted paths that were found below it. -/
def share (sorted roots : List Text) (found : List Search.Found) : List Group :=
  (roots.zip found).map fun (root, own) => ⟨root, sorted.filter own.files.contains⟩

/-- The files of each root in the order that they have among the files of all roots.  These may be in
no order (see `Path.sort`); there are groups all the same. -/
def regroup (roots : List Text) (found : List Search.Found) : List Group :=
  share (Path.sort (found.flatMap Search.Found.files)) roots found

/-! ## Reading and processing -/

/-- The files of all groups that can be read. -/
def readGroups (analysis : Analysis) (tree : Folder) (groups : List Group) : List SourceFile :=
  groups.flatMap fun g =>
    Collect.readAll (analysis.guess g.root) Collect.defaultLimit tree g.root g.files

/-- The files as a document shows them. -/
def processAll (analysis : Analysis) (s : OutputSettings) (files : List SourceFile) :
    List TextFile :=
  files.map (Processing.file analysis.captures s)

/-- The reports of the stages up to processing. -/
def progressToProcessing (groups : List Group) (files : List SourceFile) : List Text :=
  ["Searching for files...".toList, "Sorting files...".toList, "Collecting files...".toList] ++
    groups.flatMap (fun g => Progress.ticks "Collect file".toList g.files.length) ++
    "Processing files...".toList :: Progress.ticks "Processing file".toList files.length

/-- The sizes of the files below several roots after processing. -/
def fileSizes (analysis : Analysis) (tree : Folder) (roots : List Text) (s : Settings) :
    Except Error (List FileSize) :=
  (searchAll tree roots s).map fun found =>
    let files := readGroups analysis tree (regroup roots found)
    (processAll analysis s.output files).map TextFile.size

/-! ## Packing -/

/-- A finished bundle: the document, its metrics and the reports made on the way. -/
structure Packed where
  document : Text
  metrics : Metrics
  progress : List Text

/-- Makes the bundle of what searches below several roots have found. -/
def assemble (analysis : Analysis) (tree : Folder) (roots : List Text) (s : Settings)
    (found : List Search.Found) : Packed :=
  let groups := regroup roots found
  let sources := readGroups analysis tree groups
  let files := processAll analysis s.output sources
  let document := Document.render s.output files (found.flatMap Search.Found.files)
    (found.flatMap Search.Found.emptyDirs)
  { document := document
    metrics := Metrics.measure (analysis.counter s.tokenCount.encoding) files document
    progress := progressToProcessing groups sources ++
      ["Generating output...".toList, "Calculating metrics...".toList] ++
      Progress.ticks "Calculating metrics".toList files.length }

/-- Makes the bundle of the files below several roots. -/
def pack (analysis : Analysis) (tree : Folder) (roots : List Text) (s : Settings) :
    Except Error Packed :=
  (searchAll tree roots s).map (assemble analysis tree roots s)

/-- Merges overrides onto the defaults and makes the bundle, with the settings that were used. -/
def packWith (analysis : Analysis) (tree : Folder) (roots : List Text) (o : Overrides) :
    Except Error (Settings × Packed) := do
  let s ← o.merge.mapError .settingsRejected
  let packed ← pack analysis tree roots s
  return (s, packed)

end Bundle

end SourceBundle
