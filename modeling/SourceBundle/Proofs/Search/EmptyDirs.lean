import SourceBundle.Proofs.Path.Canonical
import SourceBundle.Proofs.Search.Files

/-!
# The order of empty directories

A search reports the empty directories that it visits as one sorted list.  In which order it visits
them is a matter of the order in which the tree holds its entries, and sorting makes up for that
only if the directories are not tangled (`emptyDirs_of_untangled`).

Empty directories are easily tangled: whatever is visible below one is empty too, and is reported
after it.  A directory `d` with a directory in it and an empty directory `b` beside it are enough,
as two trees show that differ in the order of their entries only (`emptyDirs_of_tangled`).
-/

namespace SourceBundle.Search

theorem emptyDirs_of_run {tree : Folder} {root : Text} {s : Settings} {found : Found}
    (h : run tree root s = .ok found) : ∃ dirs, found.emptyDirs = Path.sort dirs := by
  obtain ⟨gathered, -, rfl⟩ := run_eq_ok.1 h
  exact ⟨_, rfl⟩

/-- Different directories have one order, whatever order they are visited in, exactly when they are
not tangled.  Then this is the order in which they are found by every search that reports them. -/
theorem emptyDirs_of_untangled {dirs : List Text} (hnodup : dirs.Nodup) :
    ((∀ others : List Text, others.Perm dirs → Path.sort others = Path.sort dirs) ↔
        ¬ Path.IsTangled dirs) ∧
      (¬ Path.IsTangled dirs → ∀ tree root s found, run tree root s = .ok found →
        (∀ dir, dir ∈ found.emptyDirs ↔ dir ∈ dirs) → found.emptyDirs = Path.sort dirs) := by
  refine ⟨Path.sort_perm_iff hnodup, fun huntangled tree root s found hrun same => ?_⟩
  obtain ⟨visited, hvisited⟩ := emptyDirs_of_run hrun
  rw [hvisited] at same ⊢
  refine (Path.isTransitiveOn_iff.2 huntangled).sort_eq fun dir => ?_
  rw [← same, Path.mem_sort]

/-- Overrides that ask for empty directories. -/
def withEmptyDirs : Overrides :=
  { output := some { includeEmptyDirectories := some true }
    ignore := some { useDefaultPatterns := some false } }

/-- Empty directories `e` and `d`, the latter with an empty directory in it and a hidden file. -/
def hollowTree : Folder :=
  [(['e'], .folder []), (['d'], .folder [(['.', 'h'], .file ⟨#[]⟩), (['x'], .folder [])])]

theorem emptyDirs_of_hollowTree :
    [['e'], ['d'], ['d', '/', 'x']].Nodup ∧ ¬ Path.IsTangled [['e'], ['d'], ['d', '/', 'x']] ∧
      run hollowTree ['.'] withEmptyDirs.settings =
        .ok ⟨[['d', '/', '.', 'h']], [['d'], ['d', '/', 'x'], ['e']]⟩ ∧
      Path.sort [['e'], ['d'], ['d', '/', 'x']] = [['d'], ['d', '/', 'x'], ['e']] := by
  have hnodup : [['e'], ['d'], ['d', '/', 'x']].Nodup := by decide
  have huntangled : ¬ Path.IsTangled [['e'], ['d'], ['d', '/', 'x']] := by
    rw [← Path.isTransitiveOn_iff]
    unfold Path.IsTransitiveOn
    decide
  have hrun : run hollowTree ['.'] withEmptyDirs.settings =
      .ok ⟨[['d', '/', '.', 'h']], [['d'], ['d', '/', 'x'], ['e']]⟩ := rfl
  have hperm : [['d'], ['d', '/', 'x'], ['e']].Perm [['e'], ['d'], ['d', '/', 'x']] := by decide
  have hsort := (emptyDirs_of_untangled hnodup).2 huntangled _ _ _ _ hrun fun _ => hperm.mem_iff
  exact ⟨hnodup, huntangled, hrun, hsort.symm⟩

/-- Empty directories `b` and `d`, with an empty directory in the latter. -/
def bareTree : Folder := [(['b'], .folder []), (['d'], .folder [(['x'], .folder [])])]

/-- The directories of one tree are found in two orders, after the order of its entries. -/
theorem emptyDirs_of_tangled :
    withEmptyDirs.merge = .ok withEmptyDirs.settings ∧
      run bareTree ['.'] withEmptyDirs.settings = .ok ⟨[], [['b'], ['d'], ['d', '/', 'x']]⟩ ∧
      run bareTree.reverse ['.'] withEmptyDirs.settings =
        .ok ⟨[], [['d'], ['d', '/', 'x'], ['b']]⟩ ∧
      Path.sort [['d'], ['d', '/', 'x'], ['b']] ≠ Path.sort [['b'], ['d'], ['d', '/', 'x']] :=
  ⟨rfl, rfl, rfl, by decide⟩

end SourceBundle.Search
