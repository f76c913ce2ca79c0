import SourceBundle.Settings.Style

/-!
# Settings

The settings of one run, all of them present and valid, and their defaults.
-/

namespace SourceBundle

/-- Settings for the use of the version history. -/
structure GitSettings where
  sortByChanges : Bool := true
  maxCommits : Nat := 100
  deriving DecidableEq, Repr

/-- Settings of the document. -/
structure OutputSettings where
  style : Style := .markdown
  parsableStyle : Bool := false
  headerText : Option Text := none
  instructionText : Option Text := none
  fileSummary : Bool := true
  directoryStructure : Bool := true
  removeComments : Bool := false
  removeEmptyLines : Bool := false
  compress : Bool := false
  topFilesLength : Nat := 5
  showLineNumbers : Bool := false
  includeEmptyDirectories : Bool := false
  git : GitSettings := {}
  deriving DecidableEq, Repr

/-- Settings of what is ignored. -/
structure IgnoreSettings where
  useGitignore : Bool := true
  useDefaultPatterns : Bool := true
  customPatterns : List Text := []
  deriving DecidableEq, Repr

/-- Settings of the security check. -/
structure SecuritySettings where
  enableSecurityCheck : Bool := true
  deriving DecidableEq, Repr

/-- Settings of token counting. -/
structure TokenCountSettings where
  encoding : Encoding := .o200kBase
  deriving DecidableEq, Repr

/-- The settings of one run. -/
structure Settings where
  output : OutputSettings := {}
  includes : List Text := []
  ignore : IgnoreSettings := {}
  security : SecuritySettings := {}
  tokenCount : TokenCountSettings := {}
  deriving DecidableEq, Repr

end SourceBundle
