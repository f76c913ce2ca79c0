import SourceBundle.Sorting
import SourceBundle.Text.Basic

/-!
# Counts by path

A table of numbers by path, in the order of the paths.  A path has one number, the one that was
put last.
-/

namespace SourceBundle

/-- Numbers by path, in increasing order of the paths. -/
abbrev Counts := List (Text × Nat)

namespace Counts

/-- The table with the number of `path` set to `n`. -/
def put (path : Text) (n : Nat) : Counts → Counts
  | [] => [(path, n)]
  | (p, m) :: rest =>
    match compare path p with
    | .lt => (path, n) :: (p, m) :: rest
    | .eq => (p, n) :: rest
    | .gt => (p, m) :: put path n rest

/-- The table of the given entries; of two with one path the later counts. -/
def ofList (entries : List (Text × Nat)) : Counts :=
  entries.foldl (fun table entry => put entry.1 entry.2 table) []

/-- The entry comes before another in a ranking: it has the greater number, or the same number and
the smaller path. -/
def ranksBefore (a b : Text × Nat) : Bool :=
  b.2 < a.2 || (a.2 == b.2 && compare a.1 b.1 == .lt)

/-- The first `n` entries of the ranking. -/
def top (table : Counts) (n : Nat) : List (Text × Nat) := (sortBy ranksBefore table).take n

end Counts

end SourceBundle
