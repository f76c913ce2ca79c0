import SourceBundle.FileTree.Lookup
import SourceBundle.Text.Lines

/-!
# Exclude files of repositories

A directory with a repository of its own has a `.git` directory, and the repository's exclude file
lies in it.  A work tree that belongs to a repository elsewhere has a `.git` file instead, which
names the directory that the repository keeps for the work tree; a file there names the directory
that all work trees have in common, and the exclude file lies in that one.

The two references are paths from the top of the tree and are not tied to the directory of the file
that holds them; only a second reference that starts with a dot goes on from the first.
-/

namespace SourceBundle.Search

/-- The name of a directory's repository, or of the file that refers to it. -/
def gitName : Text := ".git".toList

/-- What follows the name of the directory that is common to all work trees in the path of the
exclude file. -/
def excludeNames : List Text := ["info".toList, "exclude".toList]

/-- The first line of a file; there is none when the file is empty or the line is not UTF-8.  A
carriage return before the line feed belongs to the line's end. -/
def firstLine? (content : ByteArray) : Option Text :=
  match content.data.toList with
  | [] => none
  | bytes =>
    match Text.pieces 10 bytes with
    | row :: _ :: _ => (Charset.utf8OfList? row).map Text.dropReturn
    | _ => Charset.utf8OfList? bytes

/-- The first line of the file to which a path leads. -/
def firstLineAt? (tree : Folder) (path : Text) : Option Text :=
  (FileTree.readFile tree path).toOption.bind firstLine?

/-- The path of the directory that is common to all work trees of the repository to which a `.git`
file refers. -/
def commonDirectory? (tree : Folder) (reference : ByteArray) : Option Text := do
  let line ← firstLine? reference
  let own ← Text.after? "gitdir: ".toList line
  let common ← firstLineAt? tree (FileTree.under own "commondir".toList)
  return if common.head? = some '.' then FileTree.under own common else common

/-- The bytes of the exclude file for the directory at a place. -/
def excludeFile? (tree : Folder) (place : Place) : Option ByteArray :=
  let git := place ++ [gitName]
  match FileTree.contentAt? tree git with
  | none => FileTree.contentAt? tree (git ++ excludeNames)
  | some reference =>
    (commonDirectory? tree reference).bind fun common =>
      (FileTree.readFile tree (FileTree.under common (Text.join ['/'] excludeNames))).toOption

end SourceBundle.Search
