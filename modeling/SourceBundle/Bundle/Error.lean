import SourceBundle.Search.Basic
import SourceBundle.Settings.Merge

/-!
# Errors

What can stop a run as a whole, how it is worded, and the exit code that goes with it.
-/

namespace SourceBundle

/-- What stops a run. -/
inductive Error where
  | noRoots
  | settingsMissing (path : Text)
  | settingsUnreadable (fault : FileTree.Fault)
  | settingsUnparsable (fault : Json.Reading.Fault)
  | settingsRejected (rejection : Rejection)
  | search (fault : Search.Fault)
  | unwritable (path : Text) (fault : FileTree.Fault)
  deriving DecidableEq, Repr

/-- The wording for settings that cannot be parsed. -/
def parseFaultMessage : Json.Reading.Fault → String
  | .cutShort => "the text ends too early"
  | .malformed => "the text is not JSON"
  | .unsuited => "a value does not fit"

namespace Error

/-- The wording of an error. -/
def message : Error → String
  | .noRoots => "no root directories given"
  | .settingsMissing path => "path not found: " ++ String.ofList path
  | .settingsUnreadable fault => "IO error: " ++ fault.message
  | .settingsUnparsable fault => "failed to parse configuration: " ++ parseFaultMessage fault
  | .settingsRejected rejection => rejection.message
  | .search fault => "walk error: " ++ fault.message
  | .unwritable path fault =>
    "output error: failed to write output to " ++ String.ofList path ++ ": " ++ fault.message

/-- The exit code of an error: 3 for a missing path, 2 for settings or roots that do not do, 1 for
all else. -/
def exitCode : Error → Nat
  | .noRoots => 2
  | .settingsMissing _ => 3
  | .settingsRejected _ => 2
  | .search (.rootMissing _) => 3
  | _ => 1

end Error

end SourceBundle
