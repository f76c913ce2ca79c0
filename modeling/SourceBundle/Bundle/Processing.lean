import SourceBundle.Bundle.Collect
import SourceBundle.Comments.Catalog
import SourceBundle.Document.Parts
import SourceBundle.Outline.Basic

/-!
# Processing files

The text of a file goes through the steps that the settings turn on, always in the same order:
comments are removed where the file's comments are known, then blank lines, then the white space
around the text.  Last it is reduced to its outline or its lines are numbered; an outline goes
before numbering, also for a file whose language has none.
-/

namespace SourceBundle.Processing

/-- The text of a file before it is outlined or numbered. -/
def cleaned (s : OutputSettings) (path content : Text) : Text :=
  let uncommented :=
    match Comments.removerOfPath? path with
    | some remover => if s.removeComments then remover.removeComments content else content
    | none => content
  Text.trim (if s.removeEmptyLines then Text.dropBlankLines uncommented else uncommented)

/-- The outline of the text of a file, with the captures that its grammar finds in the text, or the
text itself when its language has none. -/
def outlined (captures : Text → List Outline.Capture) (path content : Text) : Text :=
  match Language.ofPath? path with
  | some language => Outline.ofText language content (captures content)
  | none => content

/-- The text that a document shows of a file. -/
def content (captures : Text → List Outline.Capture) (s : OutputSettings) (path content : Text) :
    Text :=
  let text := cleaned s path content
  if s.compress then outlined captures path text
  else if s.showLineNumbers then Text.numberLines text
  else text

/-- A file as a document shows it. -/
def file (captures : Text → Text → Text → List Outline.Capture) (s : OutputSettings)
    (f : SourceFile) : TextFile :=
  ⟨f.path, content (captures f.root f.path) s f.path f.content⟩

end SourceBundle.Processing
