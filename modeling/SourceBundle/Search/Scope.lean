import SourceBundle.IgnoreFile.Rules
import SourceBundle.Search.Repository

/-!
# Ignore files in force

Each directory may bring three sets of rules: those of its own ignore file, of its `.gitignore`,
and of the exclude file of the repository whose root it is.  An entry is judged by each kind of
rules on its own: the directories from the one that holds the entry up to the root are asked in
turn until one has a verdict.  The verdict of the first kind that has one counts, in the order in
which the kinds are listed here.
-/

namespace SourceBundle.Search

open IgnoreFile

/-- The name of the ignore file that is read besides `.gitignore`. -/
def ownIgnoreName : Text := ".codecrawlignore".toList

/-- The rules that one directory brings. -/
structure Level where
  own : Rules
  gitignore : Rules
  exclude : Rules

/-- The rules of a file, if there is one. -/
def rulesOf (content : Option ByteArray) : Rules :=
  match content with
  | none => []
  | some content => Rules.ofFile content

/-- The rules that the directory at a place brings. -/
def Level.load (tree : Folder) (useGitignore : Bool) (place : Place) : Level :=
  let named (name : Text) : Option ByteArray := FileTree.contentAt? tree (place ++ [name])
  let inGit (content : Option ByteArray) : Rules := if useGitignore then rulesOf content else []
  { own := rulesOf (named ownIgnoreName)
    gitignore := inGit (named ".gitignore".toList)
    exclude := inGit (excludeFile? tree place) }

/-! ## Paths as rules see them -/

/-- The path of the entry of the given name in the directory `dir`. -/
def entryPath (dir name : Text) : Text :=
  if dir.isEmpty || Text.endsWith ['/'] dir then dir ++ name else dir ++ '/' :: name

/-- A path without the `./` that may stand at its start. -/
def dropHere (path : Text) : Text := (Text.after? ['.', '/'] path).getD path

/-- The path leads nowhere but to the current directory: it is a dot, and more dots at most. -/
def isHere (path : Text) : Bool :=
  path.head? == some '.' &&
    (Path.components path).all fun name => name.isEmpty || name == ['.']

/-- The path of an entry as the rules of the directory `dir` above it see it, both being written
from the current directory on: the rest of the path behind the directory.

A leading `./` does not count, but of several the directory loses one and the path of the entry two.
Then the directory is no longer what the path starts with, and its rules see the path from the
current directory on. -/
def pathSeenFrom (dir path : Text) : Text :=
  let dir := dropHere dir
  let path := dropHere (dropHere path)
  if isHere dir || !path.contains '/' then path
  else
    match Text.after? dir path with
    | none => path
    | some rest => (Text.after? ['/'] rest).getD rest

/-! ## Scopes -/

/-- A directory on the way to the entries that are looked at, with the rules that it brings. -/
structure Scope where
  dir : Text
  level : Level

/-- The verdict of one kind of rules on the entry at `path`. -/
def verdictOf? (kind : Level → Rules) (scopes : List Scope) (path : Text) (isDir : Bool) :
    Option Bool :=
  scopes.findSome? fun scope =>
    (kind scope.level).verdict? (pathSeenFrom scope.dir path) isDir

/-- The entry at `path` is ignored.  The scopes run from the directory that holds it up to the
root. -/
def isIgnored (scopes : List Scope) (path : Text) (isDir : Bool) : Bool :=
  (verdictOf? Level.own scopes path isDir <|> verdictOf? Level.gitignore scopes path isDir <|>
    verdictOf? Level.exclude scopes path isDir) == some true

end SourceBundle.Search
