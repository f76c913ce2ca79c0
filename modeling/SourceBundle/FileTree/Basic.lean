import SourceBundle.Path.Order

/-!
# File trees

A file tree is what a search looks at: a directory with named entries, each a regular file with
its bytes, a symbolic link with its target, or a directory again.  Entries of a directory have
different names when the tree was built by `put` from an empty one.

Places in a tree are lists of names from its top down.  The operations of this module take names
as they are; `FileTree.Lookup` follows links and dots.
-/

namespace SourceBundle

/-- An entry of a directory. -/
inductive Entry where
  | file (content : ByteArray)
  | link (target : Text)
  | folder (entries : List (Text × Entry))

/-- A directory: its entries by name. -/
abbrev Folder := List (Text × Entry)

/-- A place in a tree: the names on the way from the top. -/
abbrev Place := List Text

namespace Entry

/-- The entry is a directory and no link to one. -/
def isFolder : Entry → Bool
  | .folder _ => true
  | _ => false

/-- The entries below: none for a file or a link. -/
def children : Entry → Folder
  | .folder entries => entries
  | _ => []

end Entry

namespace Folder

/-- The entry of the given name. -/
def find? (name : Text) : Folder → Option Entry
  | [] => none
  | (n, e) :: rest => if n = name then some e else find? name rest

/-- The entry at a place. -/
def at? (folder : Folder) : Place → Option Entry
  | [] => some (.folder folder)
  | name :: rest =>
    match folder.find? name with
    | none => none
    | some e =>
      match rest with
      | [] => some e
      | _ :: _ => at? e.children rest

/-- The directory with `e` as its entry of the given name. -/
def set (name : Text) (e : Entry) : Folder → Folder
  | [] => [(name, e)]
  | (n, old) :: rest => if n = name then (n, e) :: rest else (n, old) :: set name e rest

/-- The directory without its entry of the given name. -/
def erase (name : Text) : Folder → Folder
  | [] => []
  | (n, e) :: rest => if n = name then rest else (n, e) :: erase name rest

/-- Puts an entry at a place.  Directories on the way are made, and what stands in the way makes
room. -/
def put (e : Entry) : Place → Folder → Folder
  | [], folder => folder
  | [name], folder => folder.set name e
  | name :: rest, folder =>
    let below := ((folder.find? name).map Entry.children).getD []
    folder.set name (.folder (put e rest below))

/-- Makes the directory at a place and those on the way to it. -/
def makeFolder : Place → Folder → Folder
  | [], folder => folder
  | name :: rest, folder =>
    let below := ((folder.find? name).map Entry.children).getD []
    folder.set name (.folder (makeFolder rest below))

/-- Takes the entry at a place out of the tree. -/
def remove : Place → Folder → Folder
  | [], folder => folder
  | [name], folder => folder.erase name
  | name :: rest, folder =>
    match folder.find? name with
    | some (.folder below) => folder.set name (.folder (remove rest below))
    | _ => folder

end Folder

end SourceBundle
