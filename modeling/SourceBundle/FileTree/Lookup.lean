import SourceBundle.FileTree.Basic
import SourceBundle.Charset.Utf8

/-!
# Looking up paths

A path is followed name by name from the top of the tree.  Empty names and single dots stay where
they are, two dots go back to the directory above, and a symbolic link is replaced by its target,
read from the directory that holds the link.  At most forty links are followed on one way.

A path above the top of the tree and an absolute link lead out of the tree, where nothing is
known; they are treated as paths to nothing.
-/

namespace SourceBundle.FileTree

/-- Why a path leads nowhere. -/
inductive Fault where
  /-- There is no such entry. -/
  | missing
  /-- The path goes on below a file. -/
  | notFolder
  /-- More links than may be followed. -/
  | tooManyLinks
  /-- A file was asked for and the path leads to a directory. -/
  | isFolder
  /-- A text was asked for and the bytes are not UTF-8. -/
  | notText
  deriving DecidableEq, Repr

/-- The wording of a fault. -/
def Fault.message : Fault → String
  | .missing => "No such file or directory (os error 2)"
  | .notFolder => "Not a directory (os error 20)"
  | .tooManyLinks => "Too many levels of symbolic links (os error 40)"
  | .isFolder => "Is a directory (os error 21)"
  | .notText => "stream did not contain valid UTF-8"

/-- Where a path leads: to a file, to a directory, or to a free name in a directory. -/
inductive Spot where
  | file (place : Place) (content : ByteArray)
  | folder (place : Place) (entries : Folder)
  | free (place : Place)

/-- The place is a name in a directory that has no such entry. -/
def Spot.isFree : Spot → Bool
  | .free _ => true
  | _ => false

/-- Follows names from the directory at `here`, a place with its last name first.  A link hands
over to `viaLink` with the directory that holds it and the names that are then left to follow. -/
def stroll (tree : Folder) (viaLink : Place → List Text → Except Fault Spot) (here : Place) :
    List Text → Except Fault Spot
  | [] =>
    match tree.at? here.reverse with
    | some (.folder entries) => .ok (.folder here.reverse entries)
    | _ => .error .missing
  | name :: rest =>
    if name.isEmpty || name == ['.'] then stroll tree viaLink here rest
    else if name = ['.', '.'] then
      match here with
      | [] => .error .missing
      | _ :: above => stroll tree viaLink above rest
    else
      match tree.at? (name :: here).reverse with
      | none => if rest.isEmpty then .ok (.free (name :: here).reverse) else .error .missing
      | some (.folder _) => stroll tree viaLink (name :: here) rest
      | some (.file content) =>
        if rest.isEmpty then .ok (.file (name :: here).reverse content) else .error .notFolder
      | some (.link target) =>
        if target.head? = some '/' then .error .missing
        else viaLink here (Path.components target ++ rest)

/-- Follows names through at most `links` symbolic links. -/
def follow (tree : Folder) : (links : Nat) → Place → List Text → Except Fault Spot
  | 0 => stroll tree fun _ _ => .error .tooManyLinks
  | links + 1 => stroll tree (follow tree links)

/-- The number of links that are followed on one way. -/
def linkLimit : Nat := 40

/-- Where the names lead from the top of the tree. -/
def locateNames (tree : Folder) (names : List Text) : Except Fault Spot :=
  follow tree linkLimit [] names

/-- Where a path leads from the top of the tree. -/
def locate (tree : Folder) (path : Text) : Except Fault Spot :=
  if path.head? = some '/' then .error .missing else locateNames tree (Path.components path)

/-- The path `path` taken from the directory `root`. -/
def under (root path : Text) : Text :=
  if path.head? = some '/' || root.isEmpty then path else root ++ '/' :: path

/-- The bytes of a spot that is a file. -/
def Spot.content : Spot → Except Fault ByteArray
  | .file _ content => .ok content
  | .folder _ _ => .error .isFolder
  | .free _ => .error .missing

/-- The bytes of the file to which the names lead, when they lead to one. -/
def contentAt? (tree : Folder) (names : List Text) : Option ByteArray :=
  ((locateNames tree names).bind Spot.content).toOption

/-- The bytes of the file to which a path leads. -/
def readFile (tree : Folder) (path : Text) : Except Fault ByteArray :=
  (locate tree path).bind Spot.content

/-- The text of the file to which a path leads. -/
def readText (tree : Folder) (path : Text) : Except Fault Text :=
  (readFile tree path).bind fun content =>
    match Charset.utf8? content with
    | none => .error .notText
    | some t => .ok t

/-- The path leads to a file or a directory. -/
def leadsSomewhere (tree : Folder) (path : Text) : Bool :=
  match locate tree path with
  | .ok spot => !spot.isFree
  | .error _ => false

/-- The tree after `content` has been written to the file to which a path leads; the file is made
where the directory that is to hold it exists. -/
def writeFile (tree : Folder) (path : Text) (content : ByteArray) : Except Fault Folder :=
  (locate tree path).bind fun
    | .file place _ => .ok (tree.put (.file content) place)
    | .free place => .ok (tree.put (.file content) place)
    | .folder _ _ => .error .isFolder

end SourceBundle.FileTree
