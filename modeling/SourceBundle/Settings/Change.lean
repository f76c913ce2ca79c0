import SourceBundle.Settings.Basic

/-!
# Changing settings step by step

Settings can be built up from the defaults by single changes.  Changes are applied in order, so the
last one to touch a value decides it.
-/

namespace SourceBundle.Settings

/-- One change of the settings. -/
inductive Change where
  /-- All settings are exchanged for others. -/
  | exchange (s : Settings)
  | compress (value : Bool)
  | removeComments (value : Bool)
  | showLineNumbers (value : Bool)
  deriving DecidableEq, Repr

/-- The settings after one change. -/
def Change.apply (s : Settings) : Change → Settings
  | .exchange t => t
  | .compress value => { s with output := { s.output with compress := value } }
  | .removeComments value => { s with output := { s.output with removeComments := value } }
  | .showLineNumbers value => { s with output := { s.output with showLineNumbers := value } }

/-- The settings after several changes. -/
def afterChanges (s : Settings) (changes : List Change) : Settings := changes.foldl Change.apply s

/-- The settings that changes make of the defaults. -/
def ofChanges (changes : List Change) : Settings := afterChanges {} changes

end SourceBundle.Settings
