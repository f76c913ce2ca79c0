import SourceBundle.Document.Parts

/-!
# Plain documents

Sections have their titles between long rules, files their paths between short ones.
-/

namespace SourceBundle.Document.Plain

/-- A rule of equals signs. -/
def rule (length : Nat) : Text := List.replicate length '='

/-- The title of a section. -/
def title (words : String) : Text :=
  rule 64 ++ ['\n'] ++ words.toList ++ ['\n'] ++ rule 64 ++ ['\n', '\n']

/-- A file under its path. -/
def fileBlock (f : TextFile) : Text :=
  rule 16 ++ "\nFile: ".toList ++ f.path ++ ['\n'] ++ rule 16 ++ ['\n'] ++ f.content ++
    ['\n', '\n']

/-- The summary. -/
def summary (p : Parts) : Text :=
  introduction ++ ['\n', '\n'] ++ title "File Summary" ++ fileCountLine p.files ++ ['\n'] ++
    whenPresent p.header fun t => "User Provided Header:\n".toList ++ t ++ ['\n', '\n']

/-- The document, before it is trimmed. -/
def body (p : Parts) : Text :=
  (if p.hasSummary then summary p else []) ++
    whenPresent p.listing (fun t => title "Directory Structure" ++ t ++ ['\n']) ++
    title "Files" ++ p.files.flatMap fileBlock ++
    whenPresent p.instruction (fun t => title "Instruction" ++ t ++ ['\n', '\n']) ++
    title "End of Codebase"

end SourceBundle.Document.Plain
