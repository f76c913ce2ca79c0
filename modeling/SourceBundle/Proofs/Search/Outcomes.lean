import SourceBundle.Proofs.Path.Sorters
import SourceBundle.Proofs.Search.Patterns
import SourceBundle.Proofs.Search.Walks

/-!
# How searches end

A search gathers paths on its walk and sorts them, files and empty directories each for themselves.
Sorting is where it may end without a result: the files are apart and sorted by every sorter
(`apart_files_of_gather`), but the empty directories need not be.  `runBy` is the search with any
sorter.  It has an outcome when the empty directories are settled (`runBy_eq_run`), in particular when
they are not asked for, and it may have none when there are many of them and they are tangled.

Of each outcome it is known which paths were sorted (`exists_of_mem_runBy`).  So which paths are found
is decided before the sorting, and the modules that build on this one tell it for every sorter.
-/

namespace SourceBundle.Search

open Glob

/-! ## The stages of a search -/

/-- A search that gathers paths has a root directory and two sets of patterns. -/
theorem gather_eq_ok {tree : Folder} {root : Text} {s : Settings} {gathered : Found} :
    gather tree root s = .ok gathered ↔
      ∃ place entries includes ignores, rootFolder tree root = .ok (place, entries) ∧
        PatternSet.ofTexts (includePatterns s.includes) = .ok includes ∧
        PatternSet.ofTexts (ignorePatterns tree place s.ignore) = .ok ignores ∧
        let visits := walk (guideFor tree root place s.ignore.useGitignore ignores) entries
        gathered =
          ⟨(visits.filter (selectsFile includes ignores)).map Visit.path,
            (if s.output.includeEmptyDirectories then
              visits.filter (selectsDir includes ignores) else []).map Visit.path⟩ := by
  unfold gather
  constructor
  · intro h
    obtain ⟨⟨place, entries⟩, hroot, h⟩ := bind_eq_ok.1 h
    obtain ⟨includes, hincludes, h⟩ := bind_eq_ok.1 h
    obtain ⟨ignores, hignores, h⟩ := bind_eq_ok.1 h
    rw [mapError_eq_ok] at hincludes hignores
    exact ⟨place, entries, includes, ignores, hroot, hincludes, hignores, (Except.ok.inj h).symm⟩
  · rintro ⟨place, entries, includes, ignores, hroot, hincludes, hignores, rfl⟩
    exact bind_eq_ok.2 ⟨_, hroot, bind_eq_ok.2 ⟨includes, mapError_eq_ok.2 hincludes,
      bind_eq_ok.2 ⟨ignores, mapError_eq_ok.2 hignores, rfl⟩⟩⟩

theorem gather_of_rootFolder_error {tree : Folder} {root : Text} {fault : Fault}
    (h : rootFolder tree root = .error fault) (s : Settings) :
    gather tree root s = .error fault :=
  bind_eq_error.mpr (.inl h)

theorem run_eq_ok {tree : Folder} {root : Text} {s : Settings} {found : Found} :
    run tree root s = .ok found ↔
      ∃ gathered, gather tree root s = .ok gathered ∧ gathered.sorted = found :=
  map_eq_ok

theorem locate_of_rootFolder {tree : Folder} {root : Text} {place : Place} {entries : Folder}
    (h : rootFolder tree root = .ok (place, entries)) :
    FileTree.locate tree root = .ok (.folder place entries) := by
  rw [rootFolder] at h
  split at h
  · rename_i hlocate
    cases h
    exact hlocate
  all_goals cases h

theorem eq_of_rootFolder {tree : Folder} {root : Text} {place place' : Place}
    {entries entries' : Folder} (h : rootFolder tree root = .ok (place, entries))
    (h' : rootFolder tree root = .ok (place', entries')) : place = place' ∧ entries = entries' :=
  Prod.ext_iff.1 (Except.ok.inj (h.symm.trans h'))

section

variable {tree entries : Folder} {root : Text} {place : Place} {s : Settings} {gathered : Found}

/-- With accepted settings a search gathers paths below every directory. -/
theorem exists_gather {o : Overrides} (hs : o.merge = .ok s)
    (hroot : rootFolder tree root = .ok (place, entries)) :
    ∃ gathered, gather tree root s = .ok gathered := by
  obtain ⟨includes, hincludes, -⟩ := PatternSet.exists_ofTexts (isPattern_includePatterns hs)
  obtain ⟨ignores, hignores, -⟩ :=
    PatternSet.exists_ofTexts (isPattern_ignorePatterns hs tree place)
  exact ⟨_, gather_eq_ok.2 ⟨place, entries, includes, ignores, hroot, hincludes, hignores, rfl⟩⟩

/-- What a search gathers is what it visits and lets through with two sets that accept as the pattern
texts of the settings do. -/
theorem exists_sets_of_gather {o : Overrides} (hs : o.merge = .ok s)
    (hroot : rootFolder tree root = .ok (place, entries)) (h : gather tree root s = .ok gathered) :
    ∃ includes ignores : PatternSet, includes.AcceptsAsTexts (includePatterns s.includes) ∧
      ignores.AcceptsAsTexts (ignorePatterns tree place s.ignore) ∧
      let visits := walk (guideFor tree root place s.ignore.useGitignore ignores) entries
      gathered =
        ⟨(visits.filter (selectsFile includes ignores)).map Visit.path,
          (if s.output.includeEmptyDirectories then
            visits.filter (selectsDir includes ignores) else []).map Visit.path⟩ := by
  obtain ⟨place', entries', includes, ignores, hroot', hincludes, hignores, hgathered⟩ :=
    gather_eq_ok.1 h
  obtain ⟨rfl, rfl⟩ := eq_of_rootFolder hroot hroot'
  exact ⟨includes, ignores,
    PatternSet.acceptsAsTexts_of_ofTexts (isPattern_includePatterns hs) hincludes,
    PatternSet.acceptsAsTexts_of_ofTexts (isPattern_ignorePatterns hs tree place) hignores,
    hgathered⟩

/-- The files that are gathered are at places of the root directory, so none continues another. -/
theorem apart_files_of_gather (hroot : rootFolder tree root = .ok (place, entries))
    (hproper : entries.isProper) (h : gather tree root s = .ok gathered) :
    Path.Apart gathered.files := by
  obtain ⟨place', entries', includes, ignores, hroot', -, -, rfl⟩ := gather_eq_ok.1 h
  obtain ⟨rfl, rfl⟩ := eq_of_rootFolder hroot hroot'
  refine Folder.apart hproper fun path hpath => ?_
  obtain ⟨v, hv, rfl⟩ := List.mem_map.mp hpath
  obtain ⟨hv, hselects⟩ := List.mem_filter.mp hv
  cases hinput : (guideFor tree root place s.ignore.useGitignore ignores).isInput with
  | true =>
    rw [walk, if_pos hinput] at hv
    cases hv
  | false =>
    obtain ⟨-, hat, -⟩ := (mem_walk hproper hinput).1 hv
    rw [selectsFile] at hselects
    split at hselects
    · rename_i content hentry
      exact ⟨v.names, content, rfl, hentry ▸ hat⟩
    · cases hselects

theorem apart_files_of_isProper (hproper : tree.isProper) (h : gather tree root s = .ok gathered) :
    Path.Apart gathered.files := by
  obtain ⟨place, entries, -, -, hroot, -⟩ := gather_eq_ok.1 h
  have hentries : entries.isProper :=
    Folder.isProper_of_at? hproper (FileTree.at?_of_locate (locate_of_rootFolder hroot))
  exact apart_files_of_gather hroot hentries h

/-- Below a root directory of a proper tree no path is found twice. -/
theorem nodup_files_of_run (hproper : tree.isProper) {found : Found}
    (h : run tree root s = .ok found) : found.files.Nodup := by
  obtain ⟨gathered, hgather, rfl⟩ := run_eq_ok.1 h
  exact Path.nodup_sort (apart_files_of_isProper hproper hgather)

end

/-! ## Searches with any sorter -/

/-- The paths sorted with `sorter`, if it has a result for both lists. -/
def Found.sortedBy (sorter : Path.Sorter) (found : Found) : Option Found := do
  let files ← sorter.sort? found.files
  let emptyDirs ← sorter.sort? found.emptyDirs
  return ⟨files, emptyDirs⟩

theorem Found.sortedBy_eq_some {sorter : Path.Sorter} {gathered found : Found} :
    gathered.sortedBy sorter = some found ↔
      sorter.sort? gathered.files = some found.files ∧
        sorter.sort? gathered.emptyDirs = some found.emptyDirs := by
  obtain ⟨files, emptyDirs⟩ := found
  simp [Found.sortedBy, Option.bind_eq_some_iff]

/-- A search below a root directory that sorts with `sorter`, if this has a result. -/
def runBy (sorter : Path.Sorter) (tree : Folder) (root : Text) (s : Settings) :
    Option (Except Fault Found) :=
  match gather tree root s with
  | .error fault => some (.error fault)
  | .ok gathered => (gathered.sortedBy sorter).map .ok

/-- The empty directories that a search reports are few or not tangled. -/
def DirsSettle (tree : Folder) (root : Text) (s : Settings) : Prop :=
  ∀ gathered, gather tree root s = .ok gathered → Path.IsSettled gathered.emptyDirs

section

variable {sorter : Path.Sorter} {tree entries : Folder} {root : Text} {place : Place} {s : Settings}
  {gathered : Found} {outcome : Except Fault Found}

theorem runBy_of_gather_error {fault : Fault} (h : gather tree root s = .error fault) :
    runBy sorter tree root s = some (.error fault) := by
  rw [runBy, h]

/-- With paths gathered, an outcome has them sorted. -/
theorem exists_of_mem_runBy (h : gather tree root s = .ok gathered)
    (houtcome : outcome ∈ runBy sorter tree root s) :
    ∃ found, outcome = .ok found ∧ sorter.sort? gathered.files = some found.files ∧
      sorter.sort? gathered.emptyDirs = some found.emptyDirs := by
  rw [runBy, h] at houtcome
  obtain ⟨found, hfound, rfl⟩ := Option.map_eq_some_iff.mp houtcome
  exact ⟨found, rfl, Found.sortedBy_eq_some.mp hfound⟩

/-- The files that a search finds come out of its sorter. -/
theorem exists_sort?_of_mem_runBy {found : Found} (h : .ok found ∈ runBy sorter tree root s) :
    ∃ paths, sorter.sort? paths = some found.files := by
  cases hgather : gather tree root s with
  | error fault =>
    rw [runBy_of_gather_error hgather] at h
    cases h
  | ok gathered =>
    obtain ⟨found', hfound, hfiles, -⟩ := exists_of_mem_runBy hgather h
    obtain rfl := Except.ok.inj hfound
    exact ⟨gathered.files, hfiles⟩

/-- Where no empty directories are asked for, there are none that have to be sorted. -/
theorem dirsSettle_of_not_demanded (h : s.output.includeEmptyDirectories = false) :
    DirsSettle tree root s := by
  intro gathered hgather
  obtain ⟨place, entries, includes, ignores, -, -, -, rfl⟩ := gather_eq_ok.1 hgather
  rw [h]
  exact .inl (Nat.zero_le _)

/-- Where the empty directories are settled, every sorter leads to the same outcome. -/
theorem runBy_eq_run (sorter : Path.Sorter)
    (hfiles : ∀ gathered, gather tree root s = .ok gathered → Path.Apart gathered.files)
    (hdirs : DirsSettle tree root s) : runBy sorter tree root s = some (run tree root s) := by
  rw [run]
  cases hgather : gather tree root s with
  | error fault => exact runBy_of_gather_error hgather
  | ok gathered =>
    have hsorted : gathered.sortedBy sorter = some gathered.sorted :=
      Found.sortedBy_eq_some.mpr
        ⟨sorter.sort?_of_isSettled (hfiles gathered hgather).isSettled,
          sorter.sort?_of_isSettled (hdirs gathered hgather)⟩
    rw [runBy, hgather]
    exact congrArg (Option.map Except.ok) hsorted

/-- A search below a proper directory has an outcome if the empty directories are settled. -/
theorem isSome_runBy (sorter : Path.Sorter) (hroot : rootFolder tree root = .ok (place, entries))
    (hproper : entries.isProper) (hdirs : DirsSettle tree root s) :
    (runBy sorter tree root s).isSome := by
  rw [runBy_eq_run sorter (fun gathered => apart_files_of_gather hroot hproper) hdirs,
    Option.isSome_some]

/-- `run` is the search that sorts by taking the paths one after the other. -/
theorem runBy_insertion (tree : Folder) (root : Text) (s : Settings) :
    runBy .insertion tree root s = some (run tree root s) := by
  rw [runBy, run]
  cases gather tree root s with
  | error fault => rfl
  | ok gathered => rfl

end

end SourceBundle.Search
