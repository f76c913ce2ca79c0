import SourceBundle.Glob.Table

/-!
# Sets of patterns

Patterns are used as sets that accept a path when one of them does.  A pattern for all that lies
below a directory, `dir/**` or `dir/`, has besides a directory form, the pattern `dir`: it accepts
the directory itself, so that a search need not enter it.
-/

namespace SourceBundle.Glob

/-- A set of patterns: those tried on every path, and the directory forms. -/
structure PatternSet where
  paths : List Pattern
  dirs : List Pattern
  deriving Repr

namespace PatternSet

/-- The set without patterns. -/
def empty : PatternSet := ⟨[], []⟩

/-- The forms that one pattern text gives: for every path and, where it names all below a
directory, for that directory. -/
def forms (raw : Text) : Text × Option Text :=
  match Text.before? ['/', '*', '*'] raw with
  | some dir => (raw, some dir)
  | none =>
    match Text.before? ['/'] raw with
    | some dir => (dir ++ ['/', '*', '*'], some dir)
    | none => (raw, none)

/-- Reads one form of the pattern text `raw`; a fault is reported for `raw`. -/
def compileForm (raw form : Text) : Except Invalid Pattern :=
  (tokensAfter none form).mapError fun fault => ⟨raw, fault⟩

/-- Adds a pattern text to a set.  The directory form is read first. -/
def add (set : PatternSet) (raw : Text) : Except Invalid PatternSet :=
  match forms raw with
  | (path, some dir) => do
    let dir ← compileForm raw dir
    let path ← compileForm raw path
    return ⟨set.paths ++ [path], set.dirs ++ [dir]⟩
  | (path, none) => do
    let path ← compileForm raw path
    return ⟨set.paths ++ [path], set.dirs⟩

/-- The set of the given pattern texts; the first invalid one is reported. -/
def ofTexts (raws : List Text) : Except Invalid PatternSet := raws.foldlM add empty

/-- Some pattern accepts the path. -/
def acceptsFile (set : PatternSet) (path : Text) : Bool := set.paths.any (Pattern.matches? · path)

/-- Some pattern or directory form accepts the path of a directory. -/
def acceptsDir (set : PatternSet) (path : Text) : Bool :=
  set.dirs.any (Pattern.matches? · path) || set.acceptsFile path

end PatternSet

end SourceBundle.Glob
