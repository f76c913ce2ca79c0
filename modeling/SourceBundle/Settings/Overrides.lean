import SourceBundle.Json.Reading

/-!
# Overrides

A caller names the settings that are to differ from the defaults.  Overrides hold each of them as
an optional value, as it was given and without any check; they are read from a JSON document whose
fields are those of the structures below, in the same order.
-/

namespace SourceBundle

/-- Overrides for the use of the version history. -/
structure GitOverrides where
  sortByChanges : Option Bool := none
  maxCommits : Option Int := none
  deriving DecidableEq, Repr

/-- Overrides for the document. -/
structure OutputOverrides where
  style : Option Text := none
  parsableStyle : Option Bool := none
  headerText : Option Text := none
  instructionText : Option Text := none
  fileSummary : Option Bool := none
  directoryStructure : Option Bool := none
  removeComments : Option Bool := none
  removeEmptyLines : Option Bool := none
  compress : Option Bool := none
  topFilesLength : Option Int := none
  showLineNumbers : Option Bool := none
  includeEmptyDirectories : Option Bool := none
  git : Option GitOverrides := none
  deriving DecidableEq, Repr

/-- Overrides for what is ignored. -/
structure IgnoreOverrides where
  useGitignore : Option Bool := none
  useDefaultPatterns : Option Bool := none
  customPatterns : Option (List Text) := none
  deriving DecidableEq, Repr

/-- Overrides for the security check. -/
structure SecurityOverrides where
  enableSecurityCheck : Option Bool := none
  deriving DecidableEq, Repr

/-- Overrides for token counting. -/
structure TokenCountOverrides where
  encoding : Option Text := none
  deriving DecidableEq, Repr

/-- Overrides for all settings. -/
structure Overrides where
  output : Option OutputOverrides := none
  includes : Option (List Text) := none
  ignore : Option IgnoreOverrides := none
  security : Option SecurityOverrides := none
  tokenCount : Option TokenCountOverrides := none
  deriving DecidableEq, Repr

/-! ## Their layout -/

open Json.Reading

/-- The layout of the version history section. -/
def GitOverrides.layout : Layout GitOverrides :=
  record
    [.of "sortByChanges" flag fun v o => { o with sortByChanges := v },
     .of "sortByChangesMaxCommits" whole fun v o => { o with maxCommits := v }]
    {}

/-- The layout of the document section. -/
def OutputOverrides.layout : Layout OutputOverrides :=
  record
    [.of "style" text fun v o => { o with style := v },
     .of "parsableStyle" flag fun v o => { o with parsableStyle := v },
     .of "headerText" text fun v o => { o with headerText := v },
     .of "instructionText" text fun v o => { o with instructionText := v },
     .of "fileSummary" flag fun v o => { o with fileSummary := v },
     .of "directoryStructure" flag fun v o => { o with directoryStructure := v },
     .of "removeComments" flag fun v o => { o with removeComments := v },
     .of "removeEmptyLines" flag fun v o => { o with removeEmptyLines := v },
     .of "compress" flag fun v o => { o with compress := v },
     .of "topFilesLength" whole fun v o => { o with topFilesLength := v },
     .of "showLineNumbers" flag fun v o => { o with showLineNumbers := v },
     .of "includeEmptyDirectories" flag fun v o => { o with includeEmptyDirectories := v },
     .of "git" GitOverrides.layout fun v o => { o with git := v }]
    {}

/-- The layout of the ignore section. -/
def IgnoreOverrides.layout : Layout IgnoreOverrides :=
  record
    [.of "useGitignore" flag fun v o => { o with useGitignore := v },
     .of "useDefaultPatterns" flag fun v o => { o with useDefaultPatterns := v },
     .of "customPatterns" texts fun v o => { o with customPatterns := v }]
    {}

/-- The layout of the security section. -/
def SecurityOverrides.layout : Layout SecurityOverrides :=
  record [.of "enableSecurityCheck" flag fun v o => { o with enableSecurityCheck := v }] {}

/-- The layout of the token section. -/
def TokenCountOverrides.layout : Layout TokenCountOverrides :=
  record [.of "encoding" text fun v o => { o with encoding := v }] {}

/-- The layout of a document of overrides. -/
def Overrides.layout : Layout Overrides :=
  record
    [.of "output" OutputOverrides.layout fun v o => { o with output := v },
     .of "include" texts fun v o => { o with includes := v },
     .of "ignore" IgnoreOverrides.layout fun v o => { o with ignore := v },
     .of "security" SecurityOverrides.layout fun v o => { o with security := v },
     .of "tokenCount" TokenCountOverrides.layout fun v o => { o with tokenCount := v }]
    {}

/-- Reads overrides from a JSON text. -/
def Overrides.ofText (t : Text) : Except Fault Overrides := document layout t

end SourceBundle
