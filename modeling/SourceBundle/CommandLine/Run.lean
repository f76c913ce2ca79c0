import SourceBundle.Bundle.Basic
import SourceBundle.CommandLine.Command
import SourceBundle.Json.Value
import SourceBundle.Text.Grouped

/-!
# Running commands

A run takes the file tree of the current directory and the arguments; it gives the exit code, what
is written to the two output streams, and the tree afterwards.  Errors go to the error stream, as a
JSON object when the command was asked for JSON.
-/

namespace SourceBundle.CommandLine

/-- What a run comes to. -/
structure Outcome where
  code : Nat
  stdout : Text
  stderr : Text
  /-- The path of the file that was written, if any. -/
  written : Option Text
  /-- The tree afterwards. -/
  tree : Folder

/-! ## Overrides from a file -/

/-- The overrides in the file at a path. -/
def readOverrides (tree : Folder) (path : Text) : Except Error Overrides :=
  if !FileTree.leadsSomewhere tree path then .error (.settingsMissing path)
  else
    match FileTree.readText tree path with
    | .error fault => .error (.settingsUnreadable fault)
    | .ok t => (Overrides.ofText t).mapError .settingsUnparsable

/-- The overrides of a command's file, if it names one, with the options that shape the search. -/
def SearchFlags.overrides (f : SearchFlags) (tree : Folder) : Except Error Overrides :=
  match f.config with
  | none => .ok (f.apply {})
  | some path => (readOverrides tree path).map f.apply

/-- The settings of a command. -/
def settingsFor (tree : Folder) (f : SearchFlags) (change : Overrides → Overrides) :
    Except Error Settings :=
  (f.overrides tree).bind fun o => (change o).merge.mapError .settingsRejected

/-! ## Reports -/

/-- A line of text from its parts. -/
def line (parts : List Text) : Text := parts.flatten ++ ['\n']

/-- The counts by path as a JSON object. -/
def countsJson (counts : Counts) : Json :=
  .object (counts.map fun (path, n) => (path, .number n))

/-- A bundle as a JSON object. -/
def packedJson (packed : Bundle.Packed) (top : Nat) : Json :=
  let m := packed.metrics
  .object
    [("totalFiles".toList, .number m.totalFiles),
     ("totalCharacters".toList, .number m.totalCharacters),
     ("totalTokens".toList, .number m.totalTokens),
     ("fileCharCounts".toList, countsJson m.charactersByPath),
     ("fileTokenCounts".toList, countsJson m.tokensByPath),
     ("output".toList, .text packed.document),
     ("topFiles".toList, .list ((m.topFiles top).map fun (path, tokens) =>
        .object [("path".toList, .text path), ("tokens".toList, .number tokens)]))]

/-- The lines of a ranking, numbered from `rank`. -/
def rankingLines (rank : Nat) : List (Text × Nat) → Text
  | [] => []
  | (path, tokens) :: rest =>
    line ["  ".toList, Text.numeral rank, ". ".toList, path, " (".toList, Text.grouped tokens,
      " tokens)".toList] ++ rankingLines (rank + 1) rest

/-- The summary of a bundle. -/
def packedSummary (m : Metrics) (encoding : Encoding) (top : Nat) : Text :=
  let ranking := m.topFiles top
  line ["Packed ".toList, Text.grouped m.totalFiles, " files: ".toList,
      Text.grouped m.totalCharacters, " characters, ".toList, Text.grouped m.totalTokens,
      " tokens (".toList, encoding.name.toList, [')']] ++
    if ranking.isEmpty then []
    else
      line ["Top ".toList, Text.numeral ranking.length, " files by tokens:".toList] ++
        rankingLines 1 ranking

/-- The size of a file as a line. -/
def sizeLine (f : FileSize) : Text :=
  line [f.file.path, ": ".toList, Text.grouped f.lines, " lines, ".toList,
    Text.grouped f.characters, " chars, ".toList, Text.grouped f.bytes, " bytes".toList]

/-- The size of a file as a JSON object. -/
def sizeJson (f : FileSize) : Json :=
  .object [("path".toList, .text f.file.path), ("lineCount".toList, .number f.lines),
    ("characterCount".toList, .number f.characters), ("fileSize".toList, .number f.bytes)]

/-- The sizes of files as lines, with their total. -/
def sizesReport (files : List FileSize) : Text :=
  files.flatMap sizeLine ++
    line ["Total: ".toList, Text.numeral files.length, " files, ".toList,
      Text.grouped ((files.map FileSize.bytes).foldl (· + ·) 0), " bytes".toList]

/-- The extensions of a language, each with its dot. -/
def dottedExtensions (l : Language) : List Text := l.extensions.map fun e => '.' :: e.toList

/-- The languages as lines. -/
def languagesReport : Text :=
  line ["Languages supported by --compress:".toList] ++
    Language.all.flatMap fun l =>
      line ["  ".toList, Text.padRight 12 l.name.toList, [' '],
        Text.join ", ".toList (dottedExtensions l)]

/-- The languages as a JSON object. -/
def languagesJson : Json :=
  let entry (l : Language) : Json :=
    .object [("name".toList, .text l.name.toList),
      ("extensions".toList, .list ((dottedExtensions l).map .text))]
  .object [("languages".toList, .list (Language.all.map entry))]

/-! ## Commands -/

/-- What a command that succeeds comes to. -/
def success (tree : Folder) (stdout stderr : Text) : Outcome := ⟨0, stdout, stderr, none, tree⟩

/-- The tree after a document has been written to the file at a path, if one is given. -/
def writeDocument (tree : Folder) (output : Option Text) (document : Text) :
    Except Error Folder :=
  match output with
  | none => .ok tree
  | some path =>
    (FileTree.writeFile tree path (Charset.utf8Bytes document)).mapError (.unwritable path)

/-- Shows a bundle: as JSON, or as the document and a summary. -/
def showPacked (tree : Folder) (s : Settings) (packed : Bundle.Packed) (output : Option Text)
    (json : Bool) : Except Error Outcome :=
  let top := s.output.topFilesLength
  let summary := packedSummary packed.metrics s.tokenCount.encoding top
  (writeDocument tree output packed.document).map fun tree =>
    { code := 0
      stdout :=
        if json then line [(packedJson packed top).pretty]
        else if output.isSome then []
        else packed.document
      stderr := if !json && (output.isSome || 0 < top) then summary else []
      written := output
      tree := tree }

/-- Runs a command. -/
def Command.run (analysis : Analysis) (tree : Folder) : Command → Except Error Outcome
  | .pack search document roots output json =>
    (settingsFor tree search document.apply).bind fun s =>
      (Bundle.pack analysis tree roots s).bind fun packed => showPacked tree s packed output json
  | .tree search root =>
    (settingsFor tree search id).bind fun s =>
      (Bundle.listing tree [root] s).map fun listing => success tree listing []
  | .metrics search root json =>
    (settingsFor tree search id).bind fun s =>
      (Bundle.fileSizes analysis tree [root] s).map fun files =>
        let report :=
          if json then line [(Json.list (files.map sizeJson)).pretty] else sizesReport files
        success tree report []
  | .languages json =>
    .ok (success tree (if json then line [languagesJson.pretty] else languagesReport) [])

/-- The command was asked for JSON. -/
def Command.wantsJson : Command → Bool
  | .pack _ _ _ _ json => json
  | .tree _ _ => false
  | .metrics _ _ json => json
  | .languages json => json

/-- What a command that fails comes to. -/
def failure (tree : Folder) (json : Bool) (e : Error) : Outcome :=
  let message := e.message.toList
  let report :=
    if json then
      line [(Json.object [("error".toList, .text message),
        ("code".toList, .number e.exitCode)]).compact]
    else line ["error: ".toList, message]
  ⟨e.exitCode, [], report, none, tree⟩

/-! ## Runs -/

/-- The version of the program. -/
def versionText : Text := "codecrawl 0.1.0\n".toList

/-- The overview of the commands. -/
def helpText : Text :=
  ("Pack a source repository into a single LLM-ready document\n\n" ++
    "Usage: codecrawl [OPTIONS] <COMMAND>\n\n" ++
    "Commands:\n" ++
    "  pack         Pack one or more directories into a single document\n" ++
    "  tree         Display the directory structure that would be packed\n" ++
    "  metrics      Show line, character and byte counts per file\n" ++
    "  languages    Show languages supported by --compress\n" ++
    "  completions  Generate shell completions\n" ++
    "  help         Print this message or the help of the given subcommand(s)\n\n" ++
    "Options:\n" ++
    "  -v, --verbose  Log progress and stage timings to stderr\n" ++
    "  -h, --help     Print help\n" ++
    "  -V, --version  Print version\n").toList

/-- What is said about arguments that cannot be understood. -/
def misuseText : Text :=
  ("error: the arguments cannot be understood\n\n" ++
    "Usage: codecrawl [OPTIONS] <COMMAND>\n\n" ++
    "For more information, try '--help'.\n").toList

/-- Runs the program with the given arguments. -/
def run (analysis : Analysis) (tree : Folder) (arguments : List Text) : Outcome :=
  match request arguments with
  | .run command =>
    match command.run analysis tree with
    | .ok outcome => outcome
    | .error e => failure tree command.wantsJson e
  | .version => success tree versionText []
  | .help => success tree helpText []
  | .nothing => ⟨2, [], helpText, none, tree⟩
  | .misuse => ⟨2, [], misuseText, none, tree⟩

end SourceBundle.CommandLine
