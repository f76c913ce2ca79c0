import SourceBundle.Document.Parts
import SourceBundle.Path.Extension

/-!
# Markdown documents

Every file stands under a heading with its path, in a fenced block.  All fences of a document have
one length, greater than that of any run of backticks in the files, so no line of a file closes a
block.
-/

namespace SourceBundle.Document.Markdown

/-- The backtick. -/
def backtick : Char := Char.ofNat 0x60

/-- The length of the longest run of backticks in a text that stands behind `current` of them, when
`longest` is the length of the longest run before. -/
def longestRunFrom (longest current : Nat) : Text → Nat
  | [] => longest
  | c :: t =>
    if c = backtick then longestRunFrom (max longest (current + 1)) (current + 1) t
    else longestRunFrom longest 0 t

/-- The length of the longest run of backticks in a text. -/
def longestRun (t : Text) : Nat := longestRunFrom 0 0 t

/-- The length of a document's fences. -/
def fenceLength (files : List TextFile) : Nat :=
  max ((files.map fun f => longestRun f.content).foldl max 0 + 1) 3

/-- The fence of a document with the given files. -/
def fence (files : List TextFile) : Text := List.replicate (fenceLength files) backtick

/-- The name of a file: what follows the last slash or backslash of its path. -/
def lastName (path : Text) : Text :=
  (path.reverse.takeWhile fun c => c != '/' && c != '\\').reverse

/-- The info string behind an opening fence: the file's extension. -/
def infoString (path : Text) : Text := (Path.extensionOfName? (lastName path)).getD []

/-- A file under its heading. -/
def fileBlock (fence : Text) (f : TextFile) : Text :=
  "## File: ".toList ++ f.path ++ ['\n'] ++ fence ++ infoString f.path ++ ['\n'] ++ f.content ++
    ['\n'] ++ fence ++ ['\n', '\n']

/-- The summary. -/
def summary (p : Parts) : Text :=
  introduction ++ "\n\n# File Summary\n\n".toList ++ fileCountLine p.files ++
    whenPresent p.header (fun t => "\n## User Provided Header\n\n".toList ++ t ++ ['\n']) ++ ['\n']

/-- The document, before it is trimmed. -/
def body (p : Parts) : Text :=
  let listingFence : Text := [backtick, backtick, backtick, '\n']
  (if p.hasSummary then summary p else []) ++
    whenPresent p.listing (fun t =>
      "# Directory Structure\n\n".toList ++ listingFence ++ t ++ listingFence ++ ['\n']) ++
    "# Files\n\n".toList ++ p.files.flatMap (fileBlock (fence p.files)) ++
    whenPresent p.instruction fun t => "# Instruction\n\n".toList ++ t ++ ['\n']

end SourceBundle.Document.Markdown
