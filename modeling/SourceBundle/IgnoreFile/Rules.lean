import SourceBundle.IgnoreFile.Limits
import SourceBundle.Text.Lines

/-!
# Ignore files

An ignore file lists rules, one a line.  A rule ignores the entries that its pattern matches, or
with a leading `!` keeps them; with a trailing slash it speaks of directories only.  A pattern
with a slash at its start or inside is matched against the path relative to the file's directory,
any other against the last name of the path.  Of the rules that match an entry the last decides
(`Rules.verdict?`).

A line that is not UTF-8 ends the file, and a line that is no pattern is passed over.
-/

namespace SourceBundle.IgnoreFile

/-- One rule. -/
structure Rule where
  /-- Matching entries are kept and not ignored. -/
  keeps : Bool
  /-- The rule speaks of directories only. -/
  dirOnly : Bool
  pattern : List Token

/-- The rules of one ignore file in the order of its lines. -/
abbrev Rules := List Rule

/-! ## Reading a line -/

/-- What a line says before its pattern is read. -/
structure Line where
  keeps : Bool
  /-- The pattern is matched from the file's directory on. -/
  anchored : Bool
  body : Text

/-- Takes the marks off the start of a line: a backslash makes a following `!` or `#` part of the
pattern, a `!` turns the rule around, and a slash anchors the pattern. -/
def Line.ofText : Text → Line
  | '\\' :: '!' :: t => ⟨false, false, '!' :: t⟩
  | '\\' :: '#' :: t => ⟨false, false, '#' :: t⟩
  | '!' :: '/' :: t => ⟨true, true, t⟩
  | '!' :: t => ⟨true, false, t⟩
  | '/' :: t => ⟨false, true, t⟩
  | t => ⟨false, false, t⟩

/-- The text without the slash at its end that restricts a rule to directories, and without the
backslash that may precede it. -/
def dropDirMark? (t : Text) : Option Text :=
  (Text.before? ['/'] t).map fun t => (Text.before? ['\\'] t).getD t

/-- The pattern text that is matched against whole paths.  A pattern without a slash may match at
any depth, and one for all that lies below a directory leaves out the directory itself. -/
def wholePathPattern (anchored : Bool) (body : Text) : Text :=
  let anyDepth : Text := "**/".toList
  let widened :=
    if anchored || body.contains '/' || body == ['*', '*'] then body else anyDepth ++ body
  if Text.endsWith "/**".toList widened then widened ++ ['/', '*'] else widened

/-- White space at the end of a line does not count, unless a backslash makes the last space part
of the line. -/
def trimmedLine (line : Text) : Text :=
  if Text.endsWith ['\\', ' '] line then line else Text.trimEnd line

/-- The rule of one line; comments, blank lines and lines that are no pattern have none. -/
def rule? (line : Text) : Option Rule :=
  if line.head? = some '#' then none
  else
    match trimmedLine line with
    | [] => none
    | trimmed =>
      let marks := Line.ofText trimmed
      let undirected := dropDirMark? marks.body
      (pattern? (wholePathPattern marks.anchored (undirected.getD marks.body))).map fun pattern =>
        ⟨marks.keeps, undirected.isSome, pattern⟩

/-! ## Reading a file -/

/-- The bytes of a row that a line feed ends, without the carriage return before it. -/
def dropReturnByte (row : List UInt8) : List UInt8 :=
  match row.reverse with
  | 13 :: rest => rest.reverse
  | _ => row

/-- The rows of a file as texts, up to the first that is not UTF-8. -/
def readableRows : List (List UInt8) → List Text
  | [] => []
  | [last] => (Charset.utf8OfList? last).toList
  | row :: rest =>
    match Charset.utf8OfList? (dropReturnByte row) with
    | none => []
    | some text => text :: readableRows rest

/-- The lines of a file; byte order marks at its start are passed over. -/
def fileLines (content : ByteArray) : List Text :=
  match readableRows (Text.pieces 10 content.data.toList) with
  | [] => []
  | first :: rest => first.dropWhile (· == Char.ofNat 0xFEFF) :: rest

/-- The rules of a file; none when their patterns cannot be put to use together. -/
def Rules.ofFile (content : ByteArray) : Rules :=
  let rules := (fileLines content).filterMap rule?
  if areUsable (rules.map Rule.pattern) then rules else []

/-! ## Deciding -/

/-- The rule speaks of the entry at `path`. -/
def Rule.speaksOf (rule : Rule) (path : Text) (isDir : Bool) : Bool :=
  (isDir || !rule.dirOnly) && acceptsPath rule.pattern path

/-- Whether the entry at `path` is to be ignored (`true`) or kept (`false`), when some rule speaks
of it; the last such rule decides. -/
def Rules.verdict? (rules : Rules) (path : Text) (isDir : Bool) : Option Bool :=
  (rules.reverse.find? fun rule => rule.speaksOf path isDir).map fun rule => !rule.keeps

end SourceBundle.IgnoreFile
