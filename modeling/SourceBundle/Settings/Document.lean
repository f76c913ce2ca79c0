import SourceBundle.Json.Value
import SourceBundle.Settings.Merge

/-!
# Settings as a document

Settings are shown as a JSON object with the layout in which overrides are read; all of its fields
are present.
-/

namespace SourceBundle.Settings

open Json

/-- A text that may be missing. -/
def optionalText (t : Option Text) : Json := (t.map Json.text).getD .null

/-- A member of an object. -/
def entry (key : String) (value : Json) : Text × Json := (key.toList, value)

/-- The version history section. -/
def gitJson (s : GitSettings) : Json :=
  .object [entry "sortByChanges" (.bool s.sortByChanges),
    entry "sortByChangesMaxCommits" (.number s.maxCommits)]

/-- The document section. -/
def outputJson (s : OutputSettings) : Json :=
  .object [entry "style" (.text s.style.name.toList),
    entry "parsableStyle" (.bool s.parsableStyle),
    entry "headerText" (optionalText s.headerText),
    entry "instructionText" (optionalText s.instructionText),
    entry "fileSummary" (.bool s.fileSummary),
    entry "directoryStructure" (.bool s.directoryStructure),
    entry "removeComments" (.bool s.removeComments),
    entry "removeEmptyLines" (.bool s.removeEmptyLines),
    entry "compress" (.bool s.compress),
    entry "topFilesLength" (.number s.topFilesLength),
    entry "showLineNumbers" (.bool s.showLineNumbers),
    entry "includeEmptyDirectories" (.bool s.includeEmptyDirectories),
    entry "git" (gitJson s.git)]

/-- The ignore section. -/
def ignoreJson (s : IgnoreSettings) : Json :=
  .object [entry "useGitignore" (.bool s.useGitignore),
    entry "useDefaultPatterns" (.bool s.useDefaultPatterns),
    entry "customPatterns" (.list (s.customPatterns.map .text))]

/-- The settings as a JSON object. -/
def toJson (s : Settings) : Json :=
  .object [entry "output" (outputJson s.output),
    entry "include" (.list (s.includes.map .text)),
    entry "ignore" (ignoreJson s.ignore),
    entry "security" (.object [entry "enableSecurityCheck" (.bool s.security.enableSecurityCheck)]),
    entry "tokenCount" (.object [entry "encoding" (.text s.tokenCount.encoding.name.toList)])]

end SourceBundle.Settings
