import SourceBundle.Outline.Capture
import SourceBundle.Outline.Language

/-!
# What an outline keeps of a capture

Each language has a rule that selects the rows of a capture that an outline keeps, or none.  Rows
beyond the end of the file are cut off, and a capture that starts on an empty row is passed over.
-/

namespace SourceBundle.Outline

/-! ## Rows -/

/-- The rows from `first` to `last`, as far as the file has them; none when it ends before. -/
def selectRows? (rows : List Text) (first last : Nat) : Option Text :=
  match (rows.drop first).take (max last first + 1 - first) with
  | [] => none
  | selected => some (Text.unrows selected)

/-- The rows of a header: those above the first row with an opening brace and that row up to its
last one.  A row that is blank up to there does not count, and all rows count when none has a
brace. -/
def headerRows : List Text → List Text
  | [] => []
  | row :: rest =>
    match Text.beforeLast? '\x7b' row with
    | some head => if Text.allBlank head then [] else [Text.trimEnd head]
    | none => row :: headerRows rest

/-- The header that begins on the row `first`; none when there is no text before the brace. -/
def signature? (rows : List Text) (first last : Nat) : Option Text :=
  match headerRows ((rows.drop first).take (max last first + 1 - first)) with
  | [] => none
  | selected => some (Text.unrows selected)

/-- The number of rows right above a place that begin with a decorator.  `above` are the rows above
it, the nearest first. -/
def decoratorCount : (above : List Text) → Nat
  | [] => 0
  | row :: above => if (Text.trimStart row).head? = some '@' then decoratorCount above + 1 else 0

/-- The first row of the decorators right above `row`. -/
def decoratorStart (rows : List Text) (row : Nat) : Nat :=
  row - decoratorCount (rows.take row).reverse

/-- What precedes the first opening brace, without white space at its end. -/
def prelude (t : Text) : Text := Text.trimEnd ((Text.beforeFirst? '\x7b' t).getD t)

/-! ## The rules -/

/-- How the captures of a language are treated. -/
inductive Strategy where
  | general
  | python
  | typeScript
  | go
  | css
  | vue
  deriving DecidableEq, Repr

/-- The treatment of a language. -/
def strategyFor : Language → Strategy
  | .python => .python
  | .typeScript | .tsx | .javaScript => .typeScript
  | .go => .go
  | .css => .css
  | .vue => .vue
  | _ => .general

/-- Names, comments and imports are kept with their rows. -/
def generalText? (rows : List Text) (c : Capture) : Option Text :=
  if c.isOneOf ["name", "comment", "import", "require"] then selectRows? rows c.startRow c.endRow
  else none

/-- Headers of classes, headers of functions with their decorators, documentation, comments and
imports. -/
def pythonText? (rows : List Text) (c : Capture) : Option Text :=
  if c.isA "definition.class" then selectRows? rows c.startRow c.headerRow
  else if c.isA "definition.function" then
    selectRows? rows (decoratorStart rows c.startRow) c.headerRow
  else if c.isOneOf ["docstring", "comment", "definition.import"] then
    selectRows? rows c.startRow c.endRow
  else none

/-- Functions, methods and classes up to their bodies, and whole declarations of types. -/
def typeScriptText? (rows : List Text) (c : Capture) : Option Text :=
  if c.isOneOf ["comment", "definition.import", "definition.interface", "definition.type",
      "definition.enum"] then
    selectRows? rows c.startRow c.endRow
  else if c.isOneOf ["definition.function", "definition.method", "definition.class"] then
    signature? rows c.startRow c.endRow
  else none

/-- Functions and methods up to their bodies, and whole other declarations. -/
def goText? (rows : List Text) (c : Capture) : Option Text :=
  if c.isOneOf ["definition.function", "definition.method"] then
    signature? rows c.startRow c.endRow
  else if c.isOneOf ["comment", "definition.package", "definition.import", "definition.type",
      "definition.constant", "definition.variable"] then
    selectRows? rows c.startRow c.endRow
  else none

/-- Selectors and the openings of at-rules, without their blocks. -/
def cssText? (rows : List Text) (c : Capture) : Option Text :=
  let selected :=
    if c.isOneOf ["comment", "definition.import"] then selectRows? rows c.startRow c.endRow
    else if c.isA "definition.selector" then (selectRows? rows c.startRow c.endRow).map prelude
    else if c.isA "definition.at_rule" then rows[c.startRow]?.map prelude
    else none
  selected.filter fun t => !Text.allBlank t

/-- The script as a whole, and what the grammar marks of the other blocks. -/
def vueText? (rows : List Text) (c : Capture) : Option Text :=
  if c.isOneOf ["comment", "definition.script", "definition.template", "definition.style"] then
    selectRows? rows c.startRow c.endRow
  else none

/-- The text that is kept of a capture on a row that is not empty. -/
def Strategy.text? : Strategy → List Text → Capture → Option Text
  | .general => generalText?
  | .python => pythonText?
  | .typeScript => typeScriptText?
  | .go => goText?
  | .css => cssText?
  | .vue => vueText?

/-- The text that an outline keeps of a capture. -/
def keptText? (strategy : Strategy) (rows : List Text) (c : Capture) : Option Text :=
  match rows[c.startRow]? with
  | none => none
  | some [] => none
  | some (_ :: _) => strategy.text? rows c

end SourceBundle.Outline
