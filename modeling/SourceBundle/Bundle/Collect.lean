import SourceBundle.Charset.Content
import SourceBundle.FileTree.Lookup
import SourceBundle.Path.Extension

/-!
# Collecting files

The files that a search has found are read one by one.  A file that is too large, binary, not
readable or not decodable is left out, and says why; the others are not affected.
-/

namespace SourceBundle

/-- A file as it was read: the root and the path where it was found, and its text. -/
structure SourceFile where
  root : Text
  path : Text
  content : Text
  deriving DecidableEq, Repr

namespace Collect

/-- Why a file is left out. -/
inductive Omission where
  | tooLarge (size limit : Nat)
  | binary
  | unreadable (fault : FileTree.Fault)
  | undecodable (encoding : Text)
  deriving DecidableEq, Repr

/-- The wording of an omission. -/
def Omission.message : Omission → String
  | .tooLarge size limit =>
    "file exceeds size limit: " ++ String.ofList (Text.numeral size) ++ " bytes > " ++
      String.ofList (Text.numeral limit) ++ " bytes"
  | .binary => "binary file"
  | .unreadable fault => "failed to read file: " ++ fault.message
  | .undecodable encoding => "content is not valid " ++ String.ofList encoding

/-- The size in bytes of the largest file that is read: 50 MiB. -/
def defaultLimit : Nat := 50 * 1024 * 1024

/-- The extensions of files that are binary whatever they hold. -/
def binaryExtensions : List String :=
  ["png", "jpg", "jpeg", "gif", "bmp", "ico", "webp", "tiff", "tif", "psd", "icns", "heic", "avif",
   "mp3", "mp4", "wav", "ogg", "flac", "aac", "m4a", "avi", "mov", "mkv", "webm", "wmv", "flv",
   "zip", "tar", "gz", "tgz", "bz2", "xz", "7z", "rar", "zst", "lz4", "jar", "war",
   "exe", "dll", "so", "dylib", "o", "a", "lib", "obj", "bin", "class", "pyc", "pyo", "wasm",
   "rlib",
   "pdf", "doc", "docx", "xls", "xlsx", "ppt", "pptx", "odt", "ods",
   "ttf", "otf", "woff", "woff2", "eot",
   "sqlite", "sqlite3", "db", "dat", "pak", "npy", "pkl"]

/-- The path has the extension of binary files. -/
def hasBinaryExtension (path : Text) : Bool :=
  match Path.extension? path with
  | none => false
  | some extension =>
    let lower := Text.asciiLower extension
    binaryExtensions.any fun e => e.toList == lower

/-- Reads bytes that are within the limit. -/
def textOf (guess : ByteArray → Charset.Guess) (content : ByteArray) : Except Omission Text :=
  if Charset.isBinary content then .error .binary
  else (Charset.decode guess content).mapError .undecodable

/-- Reads the file at a path below a root.  Its size is looked at first, then its extension, then
its bytes. -/
def readOne (guess : ByteArray → Charset.Guess) (limit : Nat) (tree : Folder)
    (root path : Text) : Except Omission Text :=
  let full := FileTree.under root path
  match FileTree.locate tree full with
  | .error fault => .error (.unreadable fault)
  | .ok (.free _) => .error (.unreadable .missing)
  | .ok (.folder _ _) =>
    if hasBinaryExtension full then .error .binary else .error (.unreadable .isFolder)
  | .ok (.file _ content) =>
    if limit < content.size then .error (.tooLarge content.size limit)
    else if hasBinaryExtension full then .error .binary
    else textOf guess content

/-- The files at the given paths that can be read, in the order of the paths. -/
def readAll (guess : Text → ByteArray → Charset.Guess) (limit : Nat) (tree : Folder)
    (root : Text) (paths : List Text) : List SourceFile :=
  paths.filterMap fun path =>
    match readOne (guess path) limit tree root path with
    | .ok content => some ⟨root, path, content⟩
    | .error _ => none

end Collect

end SourceBundle
