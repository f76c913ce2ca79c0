import SourceBundle.Glob.PatternSet
import SourceBundle.Search.DefaultPatterns
import SourceBundle.Search.Walk
import SourceBundle.Settings.Basic

/-!
# The search for files

A search lists the regular files below a root directory that the settings select, and on demand
the directories that are empty but for hidden entries.  A file is selected when an include pattern
accepts it, no ignore pattern does, no directory on the way to it is pruned by an ignore pattern,
and the ignore files in force exclude neither it nor any of those directories.
-/

namespace SourceBundle.Search

open Glob

/-! ## Patterns -/

/-- The texts without those that stand further to the front already. -/
def firstSeen (seen : List Text) : List Text → List Text
  | [] => []
  | t :: rest => if seen.contains t then firstSeen seen rest else t :: firstSeen (t :: seen) rest

/-- The pattern for what lies in the repository's own directory. -/
def gitPattern : Text := ".git/**".toList

/-- The root's `.git` is a file that refers to the repository of another work tree. -/
def isWorktreeRoot (tree : Folder) (root : List Text) : Bool :=
  match (FileTree.contentAt? tree (root ++ [gitName])).bind Charset.utf8? with
  | none => false
  | some t => Text.startsWith "gitdir:".toList t

/-- Where `.git` is a file, the pattern for the directory gives way to one for the file. -/
def swapGitPattern (patterns : List Text) : List Text :=
  if patterns.contains gitPattern then patterns.erase gitPattern ++ [gitName] else patterns

/-- The ignore patterns for a root directory: the built-in ones, unless they are turned off, and
those of the settings, each once. -/
def ignorePatterns (tree : Folder) (root : List Text) (s : IgnoreSettings) : List Text :=
  let builtIn := if s.useDefaultPatterns then DefaultPatterns.all.map String.toList else []
  let patterns := firstSeen [] (builtIn ++ s.customPatterns)
  if isWorktreeRoot tree root then swapGitPattern patterns else patterns

/-- The include patterns: those of the settings with their brackets made literal, or one for all
files when there are none. -/
def includePatterns (includes : List Text) : List Text :=
  if includes.isEmpty then ["**/*".toList] else includes.map escapeBrackets

/-! ## Faults -/

/-- Why a search fails. -/
inductive Fault where
  | rootMissing (root : Text)
  | rootNotFolder (root : Text)
  | rootUnreachable (root : Text) (fault : FileTree.Fault)
  | invalidPattern (e : Glob.Invalid)
  deriving DecidableEq, Repr

/-- The wording of a fault. -/
def Fault.message : Fault → String
  | .rootMissing root => "path not found: " ++ String.ofList root
  | .rootNotFolder root => "not a directory: " ++ String.ofList root
  | .rootUnreachable root fault =>
    "failed to filter files in directory " ++ String.ofList root ++ ": " ++ fault.message
  | .invalidPattern e => e.message

/-- The place and the entries of a root directory. -/
def rootFolder (tree : Folder) (root : Text) : Except Fault (Place × Folder) :=
  match FileTree.locate tree root with
  | .ok (.folder place entries) => .ok (place, entries)
  | .ok (.file _ _) => .error (.rootNotFolder root)
  | .ok (.free _) => .error (.rootMissing root)
  | .error .missing => .error (.rootMissing root)
  | .error fault => .error (.rootUnreachable root fault)

/-! ## Searching -/

/-- What a search finds, by paths relative to the root. -/
structure Found where
  files : List Text
  emptyDirs : List Text
  deriving DecidableEq, Repr

/-- The same paths, sorted.  The empty directories may be in no order (see `Path.sort`). -/
def Found.sorted (found : Found) : Found :=
  ⟨Path.sort found.files, Path.sort found.emptyDirs⟩

/-- The visit is to a regular file that the patterns select. -/
def selectsFile (includes ignores : PatternSet) (v : Visit) : Bool :=
  match v.entry with
  | .file _ => includes.acceptsFile v.path && !ignores.acceptsFile v.path
  | _ => false

/-- The visit is to an empty directory that the patterns select. -/
def selectsDir (includes ignores : PatternSet) (v : Visit) : Bool :=
  Entry.holdsOnlyHidden v.entry && includes.acceptsDir v.path && !ignores.acceptsDir v.path

/-- The guide of a walk below the root directory at a place. -/
def guideFor (tree : Folder) (root : Text) (place : Place) (useGitignore : Bool)
    (ignores : PatternSet) : Guide :=
  { root := root
    levelAt := fun names => Level.load tree useGitignore (place ++ names)
    prunes := ignores.acceptsDir }

/-- What a search below a root directory finds, in the order in which it is visited. -/
def gather (tree : Folder) (root : Text) (s : Settings) : Except Fault Found := do
  let (place, entries) ← rootFolder tree root
  let includes ← (PatternSet.ofTexts (includePatterns s.includes)).mapError .invalidPattern
  let ignores ← (PatternSet.ofTexts (ignorePatterns tree place s.ignore)).mapError .invalidPattern
  let visits := walk (guideFor tree root place s.ignore.useGitignore ignores) entries
  let emptyDirs :=
    if s.output.includeEmptyDirectories then visits.filter (selectsDir includes ignores) else []
  return ⟨(visits.filter (selectsFile includes ignores)).map Visit.path, emptyDirs.map Visit.path⟩

/-- Searches below a root directory. -/
def run (tree : Folder) (root : Text) (s : Settings) : Except Fault Found :=
  (gather tree root s).map Found.sorted

end SourceBundle.Search
