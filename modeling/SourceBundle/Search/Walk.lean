import SourceBundle.Search.Scope

/-!
# Walks

A walk visits the entries below a root directory.  It passes over the entries that the ignore files
in force exclude and does not enter directories that are pruned; links are visited and never
followed.
-/

namespace SourceBundle.Search

/-- An entry met on a walk, with the names that lead to it from the root. -/
structure Visit where
  names : List Text
  entry : Entry

/-- The root-relative path of a visit. -/
def Visit.path (v : Visit) : Text := Text.join ['/'] v.names

/-- What a walk depends on: the root as it is written, the rules that the directory with the given
names brings, and the directories that are not entered. -/
structure Guide where
  root : Text
  levelAt : List Text → Level
  prunes : Text → Bool

/-- The path of the entry to which the names lead, the root included. -/
def Guide.pathOf (guide : Guide) (names : List Text) : Text := names.foldl entryPath guide.root

/-- The scope of the directory with the given names. -/
def Guide.scopeAt (guide : Guide) (names : List Text) : Scope :=
  ⟨guide.pathOf names, guide.levelAt names⟩

/-- The entry with the given names is ignored. -/
def Guide.ignores (guide : Guide) (scopes : List Scope) (names : List Text) (isDir : Bool) : Bool :=
  isIgnored scopes (guide.pathOf names) isDir

mutual

/-- The visits to an entry and what lies below it.  `here` are the names of the directory that
holds the entry. -/
def visitEntry (guide : Guide) (scopes : List Scope) (here : List Text) (name : Text) :
    Entry → List Visit
  | .file content =>
    let names := here ++ [name]
    if guide.ignores scopes names false then [] else [⟨names, .file content⟩]
  | .link target =>
    let names := here ++ [name]
    if guide.ignores scopes names false then [] else [⟨names, .link target⟩]
  | .folder entries =>
    let names := here ++ [name]
    if guide.ignores scopes names true || guide.prunes (Text.join ['/'] names) then []
    else
      ⟨names, .folder entries⟩ :: visitAll guide (guide.scopeAt names :: scopes) names entries

/-- The visits to the entries of a directory. -/
def visitAll (guide : Guide) (scopes : List Scope) (here : List Text) : Folder → List Visit
  | [] => []
  | (name, entry) :: rest =>
    visitEntry guide scopes here name entry ++ visitAll guide scopes here rest

end

/-- The root stands for the standard input, in which there is nothing to visit. -/
def Guide.isInput (guide : Guide) : Bool :=
  match Path.components guide.root with
  | first :: rest => first == ['-'] && rest.all fun name => name.isEmpty || name == ['.']
  | [] => false

/-- The visits of a walk through the given root directory. -/
def walk (guide : Guide) (entries : Folder) : List Visit :=
  if guide.isInput then [] else visitAll guide [guide.scopeAt []] [] entries

/-! ## Hidden contents -/

mutual

/-- The entry is a directory with nothing but hidden contents. -/
def Entry.holdsOnlyHidden : Entry → Bool
  | .folder entries => areOnlyHidden entries
  | _ => false

/-- Every entry has a name that starts with a dot or is a directory with nothing but hidden
contents. -/
def areOnlyHidden : Folder → Bool
  | [] => true
  | (name, entry) :: rest =>
    (name.head? == some '.' || Entry.holdsOnlyHidden entry) && areOnlyHidden rest

end

end SourceBundle.Search
