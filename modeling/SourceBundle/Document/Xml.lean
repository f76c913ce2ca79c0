import SourceBundle.Document.Parts

/-!
# XML documents

The loose form marks the parts with tags and leaves their texts as they are.  The strict form is
one element that an XML processor can read: texts and attribute values are escaped, and characters
that XML cannot carry are replaced.
-/

namespace SourceBundle.Document.Xml

/-! ## Escaping -/

/-- The character may stand in an XML document. -/
def isXmlChar (c : Char) : Bool :=
  let n := c.toNat
  n == 0x9 || n == 0xA || n == 0xD || (0x20 ≤ n && n ≤ 0xD7FF) || (0xE000 ≤ n && n ≤ 0xFFFD) ||
    0x10000 ≤ n

/-- The character that takes the place of those that XML cannot carry. -/
def replacement : Char := Char.ofNat 0xFFFD

/-- The character itself, or the replacement if XML cannot carry it. -/
def carried (c : Char) : Char := if isXmlChar c then c else replacement

/-- A character of the content of an element. -/
def escapedTextChar (c : Char) : Text :=
  if c = '&' then "&amp;".toList
  else if c = '<' then "&lt;".toList
  else if c = '>' then "&gt;".toList
  else [carried c]

/-- The content of an element. -/
def escapedText (t : Text) : Text := t.flatMap escapedTextChar

/-- A character of an attribute value between double quotes. -/
def escapedAttributeChar (c : Char) : Text :=
  if c = '"' then "&quot;".toList
  else if c = '\'' then "&apos;".toList
  else if c = '\n' then "&#10;".toList
  else if c = '\r' then "&#13;".toList
  else if c = '\t' then "&#9;".toList
  else escapedTextChar c

/-- An attribute value between double quotes. -/
def escapedAttribute (t : Text) : Text := t.flatMap escapedAttributeChar

/-! ## Elements -/

/-- The tag that opens an element. -/
def openTag (name : String) : Text := '<' :: name.toList ++ ['>']

/-- The tag that closes an element. -/
def closeTag (name : String) : Text := '<' :: '/' :: name.toList ++ ['>']

/-- The tag that opens the element of a file, with its path written as given. -/
def fileTag (path : Text) : Text := "<file path=\"".toList ++ path ++ ['"', '>']

/-! ## The loose form -/

/-- A file in the loose form. -/
def looseFile (f : TextFile) : Text :=
  fileTag f.path ++ ['\n'] ++ f.content ++ ['\n'] ++ closeTag "file" ++ ['\n', '\n']

/-- The summary in the loose form. -/
def looseSummary (p : Parts) : Text :=
  introduction ++ ['\n', '\n'] ++ openTag "file_summary" ++ ['\n'] ++ fileCountLine p.files ++
    whenPresent p.header (fun t => openTag "user_provided_header" ++ ['\n'] ++ t ++ ['\n'] ++
      closeTag "user_provided_header" ++ ['\n']) ++
    closeTag "file_summary" ++ ['\n', '\n']

/-- The document in the loose form, before it is trimmed. -/
def looseBody (p : Parts) : Text :=
  (if p.hasSummary then looseSummary p else []) ++
    whenPresent p.listing (fun t => openTag "directory_structure" ++ ['\n'] ++ t ++
      closeTag "directory_structure" ++ ['\n', '\n']) ++
    openTag "files" ++ ['\n'] ++ p.files.flatMap looseFile ++ closeTag "files" ++ ['\n'] ++
    whenPresent p.instruction fun t => '\n' :: openTag "instruction" ++ ['\n'] ++ t ++ ['\n'] ++
      closeTag "instruction" ++ ['\n']

/-! ## The strict form -/

/-- An element with escaped content. -/
def element (name : String) (content : Text) : Text :=
  openTag name ++ escapedText content ++ closeTag name

/-- A file in the strict form. -/
def strictFile (f : TextFile) : Text :=
  fileTag (escapedAttribute f.path) ++ escapedText f.content ++ closeTag "file"

/-- The opening sentence of the files in the strict form. -/
def filesIntroduction : Text :=
  "This section contains the contents of the repository's files.".toList

/-- The document in the strict form. -/
def strictBody (p : Parts) : Text :=
  openTag "codecrawl" ++ whenPresent p.header (element "user_provided_header") ++
    whenPresent p.listing (element "directory_structure") ++ openTag "files" ++
    filesIntroduction ++ p.files.flatMap strictFile ++ closeTag "files" ++
    whenPresent p.instruction (element "instruction") ++ closeTag "codecrawl"

end SourceBundle.Document.Xml
