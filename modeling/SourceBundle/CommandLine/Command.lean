import SourceBundle.CommandLine.Arguments
import SourceBundle.Settings.Merge

/-!
# Commands

What the arguments of a run ask for.  Options of a command change overrides; each touches the value
that it names and no other.
-/

namespace SourceBundle.CommandLine

/-! ## Options as changes of overrides -/

/-- Options that shape the search. -/
structure SearchFlags where
  includes : List Text := []
  ignores : List Text := []
  noGitignore : Bool := false
  noDefaultPatterns : Bool := false
  includeEmptyDirectories : Bool := false
  /-- The file that holds overrides. -/
  config : Option Text := none
  deriving DecidableEq, Repr

/-- Options that shape the document. -/
structure PackFlags where
  style : Option Style := none
  parsable : Bool := false
  compress : Bool := false
  removeComments : Bool := false
  removeEmptyLines : Bool := false
  lineNumbers : Bool := false
  header : Option Text := none
  encoding : Option Text := none
  deriving DecidableEq, Repr

/-- The value of a flag that was given, and the old value otherwise. -/
def flagOr (given : Bool) (value : Bool) (old : Option Bool) : Option Bool :=
  if given then some value else old

/-- Overrides with the options that shape the search.  Include patterns replace those of the
overrides, ignore patterns are added to them. -/
def SearchFlags.apply (f : SearchFlags) (o : Overrides) : Overrides :=
  let ignore := o.ignore.getD {}
  let output := o.output.getD {}
  { o with
    includes := if f.includes.isEmpty then o.includes else some f.includes
    ignore := some
      { useGitignore := flagOr f.noGitignore false ignore.useGitignore
        useDefaultPatterns := flagOr f.noDefaultPatterns false ignore.useDefaultPatterns
        customPatterns :=
          if f.ignores.isEmpty then ignore.customPatterns
          else some (ignore.customPatterns.getD [] ++ f.ignores) }
    output :=
      if f.includeEmptyDirectories then some { output with includeEmptyDirectories := some true }
      else o.output }

/-- Overrides with the options that shape the document. -/
def PackFlags.apply (f : PackFlags) (o : Overrides) : Overrides :=
  let output := o.output.getD {}
  { o with
    output := some
      { output with
        style := (f.style.map fun s => s.name.toList).or output.style
        parsableStyle := flagOr f.parsable true output.parsableStyle
        compress := flagOr f.compress true output.compress
        removeComments := flagOr f.removeComments true output.removeComments
        removeEmptyLines := flagOr f.removeEmptyLines true output.removeEmptyLines
        showLineNumbers := flagOr f.lineNumbers true output.showLineNumbers
        headerText := f.header.or output.headerText }
    tokenCount :=
      match f.encoding with
      | some name => some ⟨some name⟩
      | none => o.tokenCount }

/-! ## Commands -/

/-- What a run is to do. -/
inductive Command where
  | pack (search : SearchFlags) (document : PackFlags) (roots : List Text) (output : Option Text)
      (json : Bool)
  | tree (search : SearchFlags) (root : Text)
  | metrics (search : SearchFlags) (root : Text) (json : Bool)
  | languages (json : Bool)
  deriving DecidableEq, Repr

/-- What the arguments ask for. -/
inductive Request where
  | run (command : Command)
  | version
  | help
  /-- Nothing was asked for, which calls for help. -/
  | nothing
  /-- The arguments cannot be understood. -/
  | misuse
  deriving DecidableEq, Repr

/-- The option that every command knows. -/
def verboseSpec : OptionSpec := ⟨"verbose", some 'v', .flag⟩

/-- The options that shape the search. -/
def searchSpecs : List OptionSpec :=
  [⟨"include", none, .values⟩, ⟨"ignore", none, .values⟩, ⟨"no-gitignore", none, .flag⟩,
   ⟨"no-default-patterns", none, .flag⟩, ⟨"include-empty-directories", none, .flag⟩,
   ⟨"config", none, .value⟩]

/-- The option for a result in JSON. -/
def jsonSpec : OptionSpec := ⟨"json", none, .flag⟩

/-- The options of the command that packs. -/
def packSpecs : List OptionSpec :=
  [⟨"style", none, .value⟩, ⟨"parsable", none, .flag⟩, ⟨"compress", none, .flag⟩,
   ⟨"remove-comments", none, .flag⟩, ⟨"remove-empty-lines", none, .flag⟩,
   ⟨"line-numbers", none, .flag⟩, ⟨"encoding", none, .value⟩, ⟨"header", none, .value⟩,
   ⟨"output", some 'o', .value⟩, jsonSpec] ++ searchSpecs

/-- A path that was given has to have a character. -/
def isPathGiven (path : Option Text) : Bool := path != some []

/-- The options that shape the search, as given. -/
def searchFlags? (g : Given) : Option SearchFlags :=
  let config := g.valueOf? "config"
  if isPathGiven config then
    some
      { includes := g.listOf "include"
        ignores := g.listOf "ignore"
        noGitignore := g.hasFlag "no-gitignore"
        noDefaultPatterns := g.hasFlag "no-default-patterns"
        includeEmptyDirectories := g.hasFlag "include-empty-directories"
        config := config }
  else none

/-- The style that was given, if any; it has to be a canonical name. -/
def styleGiven? (g : Given) : Option (Option Style) :=
  match g.valueOf? "style" with
  | none => some none
  | some name => (Style.all.find? fun s => s.name.toList == name).map some

/-- The options that shape the document, as given. -/
def packFlags? (g : Given) : Option PackFlags :=
  (styleGiven? g).map fun style =>
    { style := style
      parsable := g.hasFlag "parsable"
      compress := g.hasFlag "compress"
      removeComments := g.hasFlag "remove-comments"
      removeEmptyLines := g.hasFlag "remove-empty-lines"
      lineNumbers := g.hasFlag "line-numbers"
      header := g.valueOf? "header"
      encoding := g.valueOf? "encoding" }

/-- The current directory, which is the root when none is given. -/
def here : Text := ['.']

/-- The one root that may be given. -/
def oneRoot? : List Text → Option Text
  | [] => some here
  | [[]] => none
  | [root] => some root
  | _ => none

/-- The roots that are given. -/
def roots? (given : List Text) : Option (List Text) :=
  if given.isEmpty then some [here]
  else if given.all fun root => !root.isEmpty then some given
  else none

/-- Reads the arguments behind `pack`. -/
def packCommand? (arguments : List Text) : Option Command := do
  let g ← readArguments? (verboseSpec :: packSpecs) .nothing none arguments
  let search ← searchFlags? g
  let document ← packFlags? g
  let roots ← roots? g.positional
  let output := g.valueOf? "output"
  guard (isPathGiven output)
  return .pack search document roots output (g.hasFlag "json")

/-- Reads the arguments behind `tree`. -/
def treeCommand? (arguments : List Text) : Option Command := do
  let g ← readArguments? (verboseSpec :: searchSpecs) .nothing none arguments
  let search ← searchFlags? g
  let root ← oneRoot? g.positional
  return .tree search root

/-- Reads the arguments behind `metrics`. -/
def metricsCommand? (arguments : List Text) : Option Command := do
  let g ← readArguments? (verboseSpec :: jsonSpec :: searchSpecs) .nothing none arguments
  let search ← searchFlags? g
  let root ← oneRoot? g.positional
  return .metrics search root (g.hasFlag "json")

/-- Reads the arguments behind `languages`. -/
def languagesCommand? (arguments : List Text) : Option Command := do
  let g ← readArguments? [verboseSpec, jsonSpec] .nothing none arguments
  guard g.positional.isEmpty
  return .languages (g.hasFlag "json")

/-- The reader of the arguments behind a command's name. -/
def commandNamed? (name : Text) : Option (List Text → Option Command) :=
  let named : List (String × (List Text → Option Command)) :=
    [("pack", packCommand?), ("tree", treeCommand?), ("metrics", metricsCommand?),
     ("languages", languagesCommand?)]
  (named.find? fun entry => entry.1.toList == name).map Prod.snd

/-- What short names given one after the other in front of the command come to. -/
inductive Leading where
  /-- They settle what the run is to do. -/
  | settled (request : Request)
  /-- They leave it to the arguments that follow. -/
  | onward (isVerbose : Bool)
  deriving DecidableEq, Repr

/-- Reads short names that stand in front of the command, without their dash.  The first that asks
for the version or for help settles the matter, whatever is written behind it. -/
def Leading.ofShort (isVerbose : Bool) : Text → Leading
  | [] => .onward isVerbose
  | c :: t =>
    if c = 'v' then if isVerbose then .settled .misuse else ofShort true t
    else if c = 'V' then .settled .version
    else if c = 'h' then .settled .help
    else .settled .misuse

/-- Reads an option that stands in front of the command; none when the argument is no option. -/
def Leading.ofArgument? (isVerbose : Bool) (argument : Text) : Option Leading :=
  match argument with
  | '-' :: '-' :: name =>
    some <|
      if name = "verbose".toList then
        if isVerbose then .settled .misuse else .onward true
      else if name = "version".toList then .settled .version
      else if name = "help".toList then .settled .help
      else .settled .misuse
  | '-' :: c :: t => some (ofShort isVerbose (c :: t))
  | _ => none

/-- Reads the arguments in front of and with the command.  `isVerbose` tells that the option of all
commands was given already.  The lone word `help` in place of a command asks for help too. -/
def Request.ofArguments (isVerbose : Bool) : List Text → Request
  | [] => .misuse
  | argument :: rest =>
    match Leading.ofArgument? isVerbose argument with
    | some (.settled request) => request
    | some (.onward isVerbose) => ofArguments isVerbose rest
    | none =>
      if argument = "help".toList && rest.isEmpty then .help
      else
        match (commandNamed? argument).bind fun read => read rest with
        | some command => .run command
        | none => .misuse

/-- What the arguments of a run ask for.  A lone mark for the end of the options asks for
nothing. -/
def request (arguments : List Text) : Request :=
  if arguments.isEmpty || arguments == [['-', '-']] then .nothing
  else .ofArguments false arguments

end SourceBundle.CommandLine
