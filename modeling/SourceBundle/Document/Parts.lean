import SourceBundle.Listing
import SourceBundle.Settings.Basic
import SourceBundle.Text.Blank

/-!
# The parts of a document

A document shows the same parts in every style: a summary with an optional header, the directory
listing, the files, and an instruction.  Which of them are present is decided here, once for all
styles.
-/

namespace SourceBundle

/-- A file of a bundle: its path and its text. -/
structure TextFile where
  path : Text
  content : Text
  deriving DecidableEq, Repr

namespace Document

/-- What a document shows. -/
structure Parts where
  /-- The document opens with a summary. -/
  hasSummary : Bool
  /-- The header inside the summary. -/
  header : Option Text
  listing : Option Text
  files : List TextFile
  instruction : Option Text

/-- A text unless it is blank. -/
def unlessBlank (t : Option Text) : Option Text := t.filter fun t => !Text.allBlank t

/-- The listing of paths, with empty directories if the settings show them. -/
def listing (s : OutputSettings) (paths emptyDirs : List Text) : Text :=
  Listing.ofPaths paths (if s.includeEmptyDirectories then emptyDirs else [])

/-- The parts of a document that the settings ask for. -/
def parts (s : OutputSettings) (files : List TextFile) (paths emptyDirs : List Text) : Parts :=
  { hasSummary := s.fileSummary
    header := if s.fileSummary then unlessBlank s.headerText else none
    listing := if s.directoryStructure then some (listing s paths emptyDirs) else none
    files := files
    instruction := unlessBlank s.instructionText }

/-- The opening sentences of a summary. -/
def introduction : Text :=
  ("This file is a merged representation of the entire codebase, combined into a single " ++
    "document. The content has been processed for consumption by language models.").toList

/-- The line that counts the files. -/
def fileCountLine (files : List TextFile) : Text :=
  "Files: ".toList ++ Text.numeral files.length ++ ['\n']

/-- What a part adds to a document when it is present. -/
def whenPresent (part : Option Text) (write : Text → Text) : Text := (part.map write).getD []

end Document

end SourceBundle
