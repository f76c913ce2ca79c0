import SourceBundle.Document.Markdown
import SourceBundle.Document.Plain
import SourceBundle.Document.Xml

/-!
# Documents

A document in the style that the settings ask for.  Only XML has a strict form; the other styles
take no notice of that setting.  A document has no white space at its start and ends in one line
feed.
-/

namespace SourceBundle.Document

/-- The document of the given parts, before it is trimmed. -/
def body (s : OutputSettings) (p : Parts) : Text :=
  match s.style, s.parsableStyle with
  | .xml, true => Xml.strictBody p
  | .xml, false => Xml.looseBody p
  | .markdown, _ => Markdown.body p
  | .plain, _ => Plain.body p

/-- The document of the given files.  Its listing shows `paths` and, if the settings say so,
`emptyDirs`. -/
def render (s : OutputSettings) (files : List TextFile) (paths emptyDirs : List Text) : Text :=
  Text.trim (body s (parts s files paths emptyDirs)) ++ ['\n']

end SourceBundle.Document
