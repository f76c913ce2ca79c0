import SourceBundle.Sorting
import SourceBundle.Text.Lowercase

/-!
# The order of paths

Paths are compared name by name.  At the first difference a directory comes before a file, that
is, a path that goes on comes before one that ends there; two names of the same kind are compared
without regard to case, and names equal but for case by their characters.  A path comes before
those that continue it.

On lists in which no path continues another this is a total order.  With a continuation it need
not be: a path `d` comes before `d/x`, which as a directory comes before a file `a`, which in turn
may come before `d`.

On a list with such a circle a sort by comparison need not have a result.  Its order is open there,
and with more than 20 paths it may stop with a panic.  `sort` has a result for every list: it takes
the paths one after the other, as such a sort does up to 20 paths.  `Path.Sorter` is any sort that
may stop, with what can be relied on.
-/

namespace SourceBundle.Path

/-- The names of a path, cut at every slash. -/
def components (path : Text) : List Text := Text.pieces '/' path

/-- Names without regard to case first, then by their characters. -/
def compareNames (a b : Text) : Ordering :=
  (compare a.lower b.lower).then (compare a b)

/-- The order of two paths given by their names. -/
def compareComponents : List Text → List Text → Ordering
  | [], [] => .eq
  | [], _ :: _ => .lt
  | _ :: _, [] => .gt
  | a :: as, b :: bs =>
    if a = b then compareComponents as bs
    else
      match as, bs with
      | _ :: _, [] => .lt
      | [], _ :: _ => .gt
      | _, _ => compareNames a b

/-- The order of two paths. -/
def compare (a b : Text) : Ordering := compareComponents (components a) (components b)

/-- The paths in order, each kept once among equal neighbours.  On more than 20 paths among which the
order goes in a circle, other sorts may give another order, or none. -/
def sort (paths : List Text) : List Text :=
  dropRepeats (sortBy (fun a b => compare a b == .lt) paths)

end SourceBundle.Path
