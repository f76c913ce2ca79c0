import SourceBundle.Path.Order

/-!
# Directory listings

A listing shows files and empty directories as a tree.  It is built from their paths, in which a
backslash counts as a slash, and drawn with one line per entry: directories before files, each
level in the order of names, a slash behind the name of a directory.
-/

namespace SourceBundle.Listing

/-- An entry of a listing. -/
inductive Node where
  | file (name : Text)
  | folder (name : Text) (children : List Node)
  deriving Repr

namespace Node

/-- The name of an entry. -/
def name : Node → Text
  | .file name => name
  | .folder name _ => name

/-- The entry is a directory. -/
def isFolder : Node → Bool
  | .file _ => false
  | .folder _ _ => true

/-- The entries below. -/
def children : Node → List Node
  | .file _ => []
  | .folder _ children => children

/-- Directories before files, then by name. -/
def compare (a b : Node) : Ordering :=
  match a.isFolder, b.isFolder with
  | true, false => .lt
  | false, true => .gt
  | _, _ => Path.compareNames a.name b.name

end Node

/-! ## Building -/

/-- The names of a path that make up its place in a listing. -/
def placeOf (path : Text) : List Text :=
  (Path.components (path.map fun c => if c = '\\' then '/' else c)).filter fun name =>
    !name.isEmpty && name != ['.']

/-- The entries with a change to the children of the directory of the given name, which is added
when there is none. -/
def inFolder (name : Text) (change : List Node → List Node) : List Node → List Node
  | [] => [.folder name (change [])]
  | .file n :: rest => .file n :: inFolder name change rest
  | .folder n children :: rest =>
    if n = name then .folder n (change children) :: rest
    else .folder n children :: inFolder name change rest

/-- The entries with a file of the given name. -/
def withFile (name : Text) : List Node → List Node
  | [] => [.file name]
  | .file n :: rest => if n = name then .file n :: rest else .file n :: withFile name rest
  | .folder n children :: rest => .folder n children :: withFile name rest

/-- Adds the file at a place and the directories on the way to it. -/
def addFile : List Text → List Node → List Node
  | [], nodes => nodes
  | [name], nodes => withFile name nodes
  | name :: rest, nodes => inFolder name (addFile rest) nodes

/-- Adds the directory at a place and those on the way to it. -/
def addFolder : List Text → List Node → List Node
  | [], nodes => nodes
  | name :: rest, nodes => inFolder name (addFolder rest) nodes

mutual

/-- The entry with all levels below it in order. -/
def Node.sorted : Node → Node
  | .file name => .file name
  | .folder name children =>
    .folder name (sortBy (fun a b => a.compare b == .lt) (allSorted children))

/-- The entries, each with all levels below it in order. -/
def allSorted : List Node → List Node
  | [] => []
  | node :: rest => node.sorted :: allSorted rest

end

/-- The listing of files and empty directories: a directory without a name. -/
def build (files emptyDirs : List Text) : Node :=
  let withFiles := files.foldl (fun nodes path => addFile (placeOf path) nodes) []
  let nodes := emptyDirs.foldl (fun nodes path => addFolder (placeOf path) nodes) withFiles
  (Node.folder [] nodes).sorted

mutual

/-- The number of files in an entry. -/
def Node.fileCount : Node → Nat
  | .file _ => 1
  | .folder _ children => countFiles children

/-- The number of files in the entries. -/
def countFiles : List Node → Nat
  | [] => 0
  | node :: rest => node.fileCount + countFiles rest

end

/-! ## Drawing -/

/-- What stands before the name of an entry. -/
def branch (isLast : Bool) : Text := if isLast then "└── ".toList else "├── ".toList

/-- What stands before the lines below an entry. -/
def trunk (isLast : Bool) : Text := if isLast then "    ".toList else "│   ".toList

mutual

/-- The lines of an entry, each with `lead` before it. -/
def Node.drawUnder (lead : Text) (isLast : Bool) : Node → Text
  | .file name => lead ++ branch isLast ++ name ++ ['\n']
  | .folder name children =>
    lead ++ branch isLast ++ name ++ ['/', '\n'] ++ drawAll (lead ++ trunk isLast) children

/-- The lines of entries of one directory. -/
def drawAll (lead : Text) : List Node → Text
  | [] => []
  | node :: rest => node.drawUnder lead rest.isEmpty ++ drawAll lead rest

end

/-- The lines of all entries of a listing. -/
def Node.draw (root : Node) : Text := drawAll [] root.children

/-- The drawn listing of files and empty directories. -/
def ofPaths (files emptyDirs : List Text) : Text := (build files emptyDirs).draw

end SourceBundle.Listing
