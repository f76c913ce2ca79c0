import SourceBundle.CommandLine.Run

/-!
# The program

The program reads the current directory, runs the command that its arguments name, prints what the
run comes to and writes the file that the run has written.  It works without grammars and without
token vocabularies, so outlines are empty and token counts are zero.

Links are followed as far as they stay below the current directory.
-/

namespace SourceBundle

/-- The target of a link that leads out of the current directory or nowhere. -/
def outsideTarget : Text := ['/']

/-- The target, seen from `depth` levels below the top, of a link that leads to the place
`resolved`. -/
def targetFrom (top resolved : Text) (depth : Nat) : Text :=
  let back := (List.replicate depth ['.', '.', '/']).flatten
  match Text.after? top resolved with
  | some [] => back ++ ['.']
  | some ('/' :: rest) => back ++ rest
  | _ => outsideTarget

/-- Reads where a link leads. -/
def readTarget (top : Text) (depth : Nat) (e : IO.FS.DirEntry) : IO Text := do
  try
    let resolved ← IO.FS.realPath e.path
    return targetFrom top resolved.toString.toList depth
  catch _ => return outsideTarget

/-- Reads the entries of a directory `depth` levels below the top.  What cannot be read is left
out. -/
partial def readEntries (top : Text) (depth : Nat) (entries : List IO.FS.DirEntry) :
    IO Folder := do
  let mut folder : Folder := []
  for e in entries do
    let name := e.fileName.toList
    try
      match (← e.path.symlinkMetadata).type with
      | .file => folder := (name, .file (← IO.FS.readBinFile e.path)) :: folder
      | .dir =>
        let below ← e.path.readDir
        folder := (name, .folder (← readEntries top (depth + 1) below.toList)) :: folder
      | .symlink => folder := (name, .link (← readTarget top depth e)) :: folder
      | .other => pure ()
    catch _ => pure ()
  return folder

/-- Reads the current directory. -/
def readCurrentFolder : IO Folder := do
  let here ← IO.FS.realPath (← IO.currentDir)
  let entries ← here.readDir
  readEntries here.toString.toList 0 entries.toList

/-- Writes the file that a run has written. -/
def writeBack (outcome : CommandLine.Outcome) : IO Unit := do
  match outcome.written with
  | none => pure ()
  | some path =>
    match FileTree.readFile outcome.tree path with
    | .ok content => IO.FS.writeBinFile (String.ofList path) content
    | .error _ => pure ()

end SourceBundle

open SourceBundle in
/-- Runs the program. -/
def main (arguments : List String) : IO UInt32 := do
  let tree ← readCurrentFolder
  let outcome := CommandLine.run Analysis.none tree (arguments.map String.toList)
  writeBack outcome
  (← IO.getStdout).putStr (String.ofList outcome.stdout)
  (← IO.getStderr).putStr (String.ofList outcome.stderr)
  return UInt32.ofNat outcome.code
