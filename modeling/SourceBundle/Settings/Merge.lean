import SourceBundle.Glob.Pattern
import SourceBundle.Settings.Basic
import SourceBundle.Settings.Overrides

/-!
# Merging overrides onto the defaults

Overrides are checked as a whole: every value that is not acceptable gives one issue, in the order
of the fields, and overrides without issues give settings in which each value that was given
replaces its default.
-/

namespace SourceBundle

/-- A value of the overrides that is not acceptable. -/
inductive Issue where
  | unknownStyle (given : Text)
  | negativeTopFiles (given : Int)
  | maxCommitsOutOfRange (given : Int)
  | invalidInclude (index : Nat) (given : Text) (fault : Glob.Fault)
  | invalidCustomPattern (index : Nat) (given : Text) (fault : Glob.Fault)
  | unknownEncoding (given : Text)
  deriving DecidableEq, Repr

namespace Issue

/-- The dotted path of the field at fault. -/
def field : Issue → String
  | .unknownStyle _ => "output.style"
  | .negativeTopFiles _ => "output.topFilesLength"
  | .maxCommitsOutOfRange _ => "output.git.sortByChangesMaxCommits"
  | .invalidInclude index _ _ => "include." ++ String.ofList (Text.numeral index)
  | .invalidCustomPattern index _ _ =>
    "ignore.customPatterns." ++ String.ofList (Text.numeral index)
  | .unknownEncoding _ => "tokenCount.encoding"

/-- The names of the styles, as they are offered. -/
def styleChoices : String := " | ".intercalate (Style.all.map fun s => "'" ++ s.name ++ "'")

/-- What is wrong with the value. -/
def message : Issue → String
  | .unknownStyle given =>
    "expected one of " ++ styleChoices ++ ", received " ++ String.ofList (Text.quoted given)
  | .negativeTopFiles _ => "number must be greater than or equal to 0"
  | .maxCommitsOutOfRange _ => "number must be greater than or equal to 1"
  | .invalidInclude _ given fault => (Glob.Invalid.mk given fault).message
  | .invalidCustomPattern _ given fault => (Glob.Invalid.mk given fault).message
  | .unknownEncoding given => Encoding.unknownMessage given

end Issue

/-- Overrides that were rejected: the headline of the report and the issues. -/
structure Rejection where
  headline : Text
  issues : List Issue
  deriving DecidableEq, Repr

/-- The headline that is used unless a caller gives another. -/
def Rejection.defaultHeadline : Text := "Invalid configuration".toList

/-- The report of a rejection. -/
def Rejection.message (r : Rejection) : String :=
  let issueLine (i : Issue) : String := "  [" ++ i.field ++ "] " ++ i.message
  String.ofList r.headline ++ "\n\n" ++ "\n".intercalate (r.issues.map issueLine) ++
    "\n\n  Please check the configuration and try again."

namespace Overrides

/-! ## Checking -/

/-- The fault of a pattern text, if it is no pattern. -/
def patternFault? (raw : Text) : Option Glob.Fault :=
  match Glob.tokensAfter none raw with
  | .ok _ => none
  | .error fault => some fault

/-- The issues of the patterns from position `index` on. -/
def patternIssues (escape : Text → Text) (issue : Nat → Text → Glob.Fault → Issue) (index : Nat) :
    List Text → List Issue
  | [] => []
  | raw :: rest =>
    ((patternFault? (escape raw)).map (issue index raw)).toList ++
      patternIssues escape issue (index + 1) rest

/-- The issue of a style name. -/
def styleIssues (given : Option Text) : List Issue :=
  match given with
  | none => []
  | some name => if (Style.ofName? name).isSome then [] else [.unknownStyle name]

/-- The issue of a number of top files. -/
def topFilesIssues (given : Option Int) : List Issue :=
  match given with
  | none => []
  | some n => if 0 ≤ n then [] else [.negativeTopFiles n]

/-- The issue of a number of commits. -/
def maxCommitsIssues (given : Option Int) : List Issue :=
  match given with
  | none => []
  | some n => if 1 ≤ n ∧ n < Int.pow 2 32 then [] else [.maxCommitsOutOfRange n]

/-- The issue of an encoding name. -/
def encodingIssues (given : Option Text) : List Issue :=
  match given with
  | none => []
  | some name => if (Encoding.ofName? name).isSome then [] else [.unknownEncoding name]

/-- The issues of the overrides, in the order of the fields. -/
def issues (o : Overrides) : List Issue :=
  styleIssues (o.output.bind OutputOverrides.style) ++
    topFilesIssues (o.output.bind OutputOverrides.topFilesLength) ++
    maxCommitsIssues ((o.output.bind OutputOverrides.git).bind GitOverrides.maxCommits) ++
    patternIssues Glob.escapeBrackets .invalidInclude 0 (o.includes.getD []) ++
    patternIssues id .invalidCustomPattern 0
      ((o.ignore.bind IgnoreOverrides.customPatterns).getD []) ++
    encodingIssues (o.tokenCount.bind TokenCountOverrides.encoding)

/-! ## Merging -/

/-- The settings for the version history. -/
def gitSettings (o : GitOverrides) : GitSettings :=
  let d : GitSettings := {}
  { sortByChanges := o.sortByChanges.getD d.sortByChanges
    maxCommits := (o.maxCommits.map Int.toNat).getD d.maxCommits }

/-- The settings of the document. -/
def outputSettings (o : OutputOverrides) : OutputSettings :=
  let d : OutputSettings := {}
  { style := (o.style.bind Style.ofName?).getD d.style
    parsableStyle := o.parsableStyle.getD d.parsableStyle
    headerText := o.headerText
    instructionText := o.instructionText
    fileSummary := o.fileSummary.getD d.fileSummary
    directoryStructure := o.directoryStructure.getD d.directoryStructure
    removeComments := o.removeComments.getD d.removeComments
    removeEmptyLines := o.removeEmptyLines.getD d.removeEmptyLines
    compress := o.compress.getD d.compress
    topFilesLength := (o.topFilesLength.map Int.toNat).getD d.topFilesLength
    showLineNumbers := o.showLineNumbers.getD d.showLineNumbers
    includeEmptyDirectories := o.includeEmptyDirectories.getD d.includeEmptyDirectories
    git := (o.git.map gitSettings).getD d.git }

/-- The settings of what is ignored. -/
def ignoreSettings (o : IgnoreOverrides) : IgnoreSettings :=
  let d : IgnoreSettings := {}
  { useGitignore := o.useGitignore.getD d.useGitignore
    useDefaultPatterns := o.useDefaultPatterns.getD d.useDefaultPatterns
    customPatterns := o.customPatterns.getD d.customPatterns }

/-- The settings of the security check. -/
def securitySettings (o : SecurityOverrides) : SecuritySettings :=
  let d : SecuritySettings := {}
  { enableSecurityCheck := o.enableSecurityCheck.getD d.enableSecurityCheck }

/-- The settings of token counting. -/
def tokenCountSettings (o : TokenCountOverrides) : TokenCountSettings :=
  let d : TokenCountSettings := {}
  { encoding := (o.encoding.bind Encoding.ofName?).getD d.encoding }

/-- The defaults with the values that the overrides give. -/
def settings (o : Overrides) : Settings :=
  { output := (o.output.map outputSettings).getD {}
    includes := o.includes.getD []
    ignore := (o.ignore.map ignoreSettings).getD {}
    security := (o.security.map securitySettings).getD {}
    tokenCount := (o.tokenCount.map tokenCountSettings).getD {} }

/-- Merges overrides onto the defaults, or reports all their issues under a headline. -/
def mergeUnder (headline : Text) (o : Overrides) : Except Rejection Settings :=
  match o.issues with
  | [] => .ok o.settings
  | found => .error ⟨headline, found⟩

/-- Merges overrides onto the defaults. -/
def merge (o : Overrides) : Except Rejection Settings := mergeUnder Rejection.defaultHeadline o

end Overrides

end SourceBundle
