import SourceBundle.Text.Basic

/-!
# Workers and progress

Each stage works through its files with a number of workers that grows with the number of files.
Results come in the order of the files, and each finished file is reported by its count.
-/

namespace SourceBundle.Progress

/-- The number of files for which one worker is enough. -/
def filesPerWorker : Nat := 100

/-- The number of workers for a number of files: one for every hundred, at least one, and at most
the number of processors. -/
def workerCount (processors files : Nat) : Nat :=
  max 1 (min processors ((files + filesPerWorker - 1) / filesPerWorker))

/-- The report of the `k`-th finished file of `n`. -/
def tick (label : Text) (n k : Nat) : Text :=
  label ++ "... (".toList ++ Text.numeral k ++ ['/'] ++ Text.numeral n ++ [')']

/-- The reports of a stage with `n` files. -/
def ticks (label : Text) (n : Nat) : List Text := (List.range n).map fun k => tick label n (k + 1)

/-- The results for all items, or the first failure in their order. -/
def tryAll {α β ε : Type} (work : α → Except ε β) : List α → Except ε (List β)
  | [] => .ok []
  | item :: rest => do
    let result ← work item
    let results ← tryAll work rest
    return result :: results

end SourceBundle.Progress
