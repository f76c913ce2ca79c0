import SourceBundle.Glob.Pattern

/-!
# Matching of glob patterns

A pattern is matched against a whole path.  Letters match with their case, slashes are matched by
slashes and by `**` only, and a leading dot is a character like any other.
-/

namespace SourceBundle.Glob

/-- The character is the member or lies in its range. -/
def Member.holds (c : Char) : Member → Bool
  | .single d => c == d
  | .range first last => first ≤ c && c ≤ last

/-- Some split of the path has a slash-free first part and a second part that `rest` accepts. -/
def afterRun (rest : Text → Bool) : Text → Bool
  | [] => rest []
  | c :: t => rest (c :: t) || (c != '/' && afterRun rest t)

/-- `rest` accepts what follows one of the slashes of the path, or the empty text at its end. -/
def afterSlash (rest : Text → Bool) : Text → Bool
  | [] => rest []
  | c :: t => (c == '/' && rest t) || afterSlash rest t

/-- `rest` accepts the path without some of its leading components. -/
def afterComponents (rest : Text → Bool) (path : Text) : Bool := rest path || afterSlash rest path

/-- The first character, unless it is a slash, passes `test`, and `rest` accepts what follows. -/
def afterOne (test : Char → Bool) (rest : Text → Bool) : Text → Bool
  | [] => false
  | c :: t => c != '/' && test c && rest t

/-- The pattern matches the whole path. -/
def accepts : Pattern → Text → Bool
  | [] => List.isEmpty
  | .literal d :: rest => fun
    | [] => false
    | c :: t => c == d && accepts rest t
  | .anyChar :: rest => afterOne (fun _ => true) (accepts rest)
  | .oneOf ms :: rest => afterOne (fun c => ms.any (Member.holds c)) (accepts rest)
  | .noneOf ms :: rest => afterOne (fun c => !ms.any (Member.holds c)) (accepts rest)
  | .anyRun :: rest => afterRun (accepts rest)
  | .anyComponents :: rest => afterComponents (accepts rest)

end SourceBundle.Glob
