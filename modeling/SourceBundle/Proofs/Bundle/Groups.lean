import SourceBundle.Bundle.Basic
import SourceBundle.Proofs.Listing.Files
import SourceBundle.Proofs.Search.Files

/-!
# Files root by root

The paths of all roots are sorted as one list, and each root takes from it the paths that were found
below it.  When the paths of all roots together are `Apart`, that list is in a total order, and what a
root takes from it is the one ascending list of its own paths (`filter_sort_of_apart`), that is, what
was found below it.

The condition is on all roots together.  Paths of one root are always apart, but a path of one may
continue a path of another: in `clashingTree` there is a file `d` below one root and a directory `d`
below the other.  The pooled list is then in no order, and a path that both roots have is not seen as
a repeat.  With more than a few paths there may not even be groups, since a sort may stop at such a
list.  If there are groups, no path got lost on the way.  All this is shown for any sorter
(`regroupBy_of_runs`).

With one root there is nothing to pool.  The files of its document come in the order in which the
directory listing shows them.
-/

namespace SourceBundle.Bundle

open Search (Found)

/-! ## Several roots -/

theorem forall₂_of_searchAll {tree : Folder} {roots : List Text} {s : Settings}
    {found : List Found} (h : searchAll tree roots s = .ok found) :
    List.Forall₂ (fun root own => Search.run tree root s = .ok own) roots found := by
  rw [searchAll] at h
  split at h
  · cases h
  · exact (Progress.forall₂_of_tryAll h).imp fun root own hown => mapError_eq_ok.1 hown

/-- The files of each root when those of all roots are sorted with `sorter`, if it has a result. -/
def regroupBy (sorter : Path.Sorter) (roots : List Text) (found : List Found) :
    Option (List Group) :=
  (sorter.sort? (found.flatMap Found.files)).map fun sorted => share sorted roots found

/-- `regroup` is the grouping that sorts by taking the paths one after the other. -/
theorem regroupBy_insertion (roots : List Text) (found : List Found) :
    regroupBy .insertion roots found = some (regroup roots found) := by
  rw [regroupBy, Path.Sorter.sort?_insertion, Option.map_some, regroup]

/-- Where the paths of all roots together are settled, every sorter leads to the same groups. -/
theorem regroupBy_eq_regroup (sorter : Path.Sorter) (roots : List Text) {found : List Found}
    (h : Path.IsSettled (found.flatMap Found.files)) :
    regroupBy sorter roots found = some (regroup roots found) := by
  rw [regroupBy, sorter.sort?_of_isSettled h, Option.map_some, regroup]

/-- A root gets the paths that were found below it, if all of them are among the sorted ones. -/
theorem forall₂_share {sorted roots : List Text} {found : List Found}
    (hlength : roots.length = found.length) (hsub : ∀ own ∈ found, own.files ⊆ sorted) :
    List.Forall₂ (fun group own => ∀ path, path ∈ group.files ↔ path ∈ own.files)
      (share sorted roots found) found := by
  have hgroups : List.Forall₂ (fun group own => ∀ path, path ∈ group.files ↔ path ∈ own.files)
      (share sorted roots found) ((roots.zip found).map Prod.snd) := by
    rw [share, List.forall₂_map_left_iff, List.forall₂_map_right_iff, List.forall₂_same]
    rintro ⟨root, own⟩ hown path
    rw [List.mem_filter, List.contains_iff_mem]
    exact and_iff_right_of_imp fun hpath => hsub own (List.of_mem_zip hown).2 hpath
  rwa [List.map_snd_zip hlength.ge] at hgroups

theorem map_root_share {sorted roots : List Text} {found : List Found}
    (hlength : roots.length = found.length) : (share sorted roots found).map Group.root = roots := by
  rw [share, List.map_map]
  exact List.map_fst_zip hlength.le

/-- A root takes from the sorted paths of all roots its own, each once and in order. -/
theorem filter_sort_of_apart (sorter : Path.Sorter) {pool paths own : List Text}
    (h : Path.Apart pool) (hown : sorter.sort? paths = some own) (hsub : own ⊆ pool) :
    (Path.sort pool).filter own.contains = own ∧ own.Nodup := by
  have hpaths : Path.Apart paths := h.subset fun path hpath =>
    hsub ((Path.Sorter.mem_of_sort? hown).2 hpath)
  obtain rfl : Path.sort paths = own := by
    rw [sorter.sort?_of_isSettled hpaths.isSettled] at hown
    exact Option.some.inj hown
  refine ⟨?_, Path.nodup_sort hpaths⟩
  apply eq_of_pairwise_lt ((Path.pairwise_sort h).filter _) (Path.pairwise_sort hpaths)
  intro path
  rw [List.mem_filter, List.contains_iff_mem, Path.mem_sort]
  exact and_iff_right_of_imp fun hpath => hsub hpath

/-- Where searches below all roots have found files, these come in groups when the paths of all roots
together are settled.  Each root has a group, with the paths that were found below it.  If the paths
of all roots are apart, they are there once and in the order in which they were found. -/
theorem regroupBy_of_runs (sorter : Path.Sorter) {tree : Folder} {roots : List Text} {s : Settings}
    {found : List Found}
    (h : List.Forall₂ (fun root own => .ok own ∈ Search.runBy sorter tree root s) roots found) :
    (Path.IsSettled (found.flatMap Found.files) → (regroupBy sorter roots found).isSome) ∧
      (∀ groups ∈ regroupBy sorter roots found, groups.map Group.root = roots ∧
        List.Forall₂ (fun group own => ∀ path, path ∈ group.files ↔ path ∈ own.files)
          groups found) ∧
      (Path.Apart (found.flatMap Found.files) →
        regroupBy sorter roots found =
            some (List.zipWith (fun root own => ⟨root, own.files⟩) roots found) ∧
          ∀ own ∈ found, own.files.Nodup) := by
  have hpool : ∀ own ∈ found, own.files ⊆ found.flatMap Found.files :=
    fun own hown path hpath => List.mem_flatMap.mpr ⟨own, hown, hpath⟩
  refine ⟨fun hsettled => ?_, fun groups hgroups => ?_, fun hapart => ?_⟩
  · rw [regroupBy_eq_regroup sorter roots hsettled, Option.isSome_some]
  · obtain ⟨sorted, hsorted, rfl⟩ := Option.map_eq_some_iff.mp hgroups
    refine ⟨map_root_share h.length_eq, forall₂_share h.length_eq fun own hown path hpath => ?_⟩
    exact (Path.Sorter.mem_of_sort? hsorted).2 (hpool own hown hpath)
  · have htaken : ∀ own ∈ found,
        (Path.sort (found.flatMap Found.files)).filter own.files.contains = own.files ∧
          own.files.Nodup := by
      intro own hown
      obtain ⟨i, hi, rfl⟩ := List.mem_iff_getElem.mp hown
      have hi' : i < roots.length := by rwa [h.length_eq]
      obtain ⟨paths, hpaths⟩ := Search.exists_sort?_of_mem_runBy (h.get hi' hi)
      exact filter_sort_of_apart sorter hapart hpaths (hpool _ hown)
    refine ⟨?_, fun own hown => (htaken own hown).2⟩
    rw [regroupBy_eq_regroup sorter roots hapart.isSettled, regroup, share,
      ← List.map_uncurry_zip_eq_zipWith]
    refine congrArg some (List.map_congr_left ?_)
    rintro ⟨root, own⟩ hown
    exact congrArg (Group.mk root) (htaken own (List.of_mem_zip hown).2).1

/-- Two roots that have a path and a directory in common. -/
def sharingTree : Folder :=
  [(['p'], .folder [(['a'], .file ⟨#[]⟩), (['d'], .folder [(['x'], .file ⟨#[]⟩)])]),
    (['q'], .folder [(['B'], .file ⟨#[]⟩), (['a'], .file ⟨#[]⟩),
      (['d'], .folder [(['y'], .file ⟨#[]⟩)])])]

theorem regroup_sharingTree :
    let found : List Found :=
      [⟨[['d', '/', 'x'], ['a']], []⟩, ⟨[['d', '/', 'y'], ['a'], ['B']], []⟩]
    searchAll sharingTree [['p'], ['q']] Search.withoutT.settings = .ok found ∧
      (∀ sorter, List.Forall₂ (fun root own =>
        .ok own ∈ Search.runBy sorter sharingTree root Search.withoutT.settings)
          [['p'], ['q']] found) ∧
      Path.Apart (found.flatMap Found.files) ∧
      (∀ sorter, regroupBy sorter [['p'], ['q']] found =
        some [⟨['p'], [['d', '/', 'x'], ['a']]⟩, ⟨['q'], [['d', '/', 'y'], ['a'], ['B']]⟩]) ∧
      regroup [['p'], ['q']] found =
        [⟨['p'], [['d', '/', 'x'], ['a']]⟩, ⟨['q'], [['d', '/', 'y'], ['a'], ['B']]⟩] := by
  intro found
  have hfound : searchAll sharingTree [['p'], ['q']] Search.withoutT.settings = .ok found := rfl
  have hapart : Path.Apart (found.flatMap Found.files) := by
    unfold Path.Apart
    decide
  have hproper : sharingTree.isProper := by decide
  have hruns : ∀ sorter, List.Forall₂ (fun root own =>
      .ok own ∈ Search.runBy sorter sharingTree root Search.withoutT.settings)
        [['p'], ['q']] found := by
    refine fun sorter => (forall₂_of_searchAll hfound).imp fun root own hown => ?_
    rw [Search.runBy_eq_run sorter (fun gathered => Search.apart_files_of_isProper hproper)
      (Search.dirsSettle_of_not_demanded rfl), hown]
    rfl
  have hgroups := fun sorter => ((regroupBy_of_runs sorter (hruns sorter)).2.2 hapart).1
  refine ⟨hfound, hruns, hapart, hgroups, ?_⟩
  exact Option.some.inj ((regroupBy_insertion _ _).symm.trans (hgroups .insertion))

/-- Two roots that have a path in common, and a name that is a file in one and a directory in the
other. -/
def clashingTree : Folder :=
  [(['p'], .folder [(['a'], .file ⟨#[]⟩), (['d'], .file ⟨#[]⟩)]),
    (['q'], .folder [(['a'], .file ⟨#[]⟩), (['d'], .folder [(['x'], .file ⟨#[]⟩)])])]

/-- The file `a` of either root comes up twice in its group.  The list is short, so this is what every
sorter makes of it. -/
theorem regroup_clashingTree :
    ∃ found, searchAll clashingTree [['p'], ['q']] Search.withoutT.settings = .ok found ∧
      found.map Found.files = [[['a'], ['d']], [['d', '/', 'x'], ['a']]] ∧
      (regroup [['p'], ['q']] found).map Group.files =
        [[['a'], ['d'], ['a']], [['a'], ['d', '/', 'x'], ['a']]] ∧
      ∀ sorter, regroupBy sorter [['p'], ['q']] found = some (regroup [['p'], ['q']] found) :=
  ⟨_, rfl, rfl, rfl, fun sorter => regroupBy_eq_regroup sorter _ (.inl (by decide))⟩

/-! ## One root -/

theorem map_path_readAll_sublist (guess : Text → ByteArray → Charset.Guess) (limit : Nat)
    (tree : Folder) (root : Text) (paths : List Text) :
    ((Collect.readAll guess limit tree root paths).map SourceFile.path).Sublist paths := by
  induction paths with
  | nil => exact .slnil
  | cons path paths ih =>
    rw [Collect.readAll, List.filterMap_cons]
    cases Collect.readOne (guess path) limit tree root path with
    | error omission => exact ih.cons path
    | ok content => exact ih.cons_cons path

theorem regroup_singleton (root : Text) (own : Found) :
    regroup [root] [own] = [⟨root, Path.sort own.files⟩] := by
  have hall : (Path.sort own.files).filter own.files.contains = Path.sort own.files := by
    rw [List.filter_eq_self]
    intro path hpath
    rwa [List.contains_iff_mem, ← Path.mem_sort]
  simp [regroup, share, hall]

/-- The files of a bundle, as its document shows them. -/
def textFiles (analysis : Analysis) (tree : Folder) (roots : List Text) (s : Settings)
    (found : List Found) : List TextFile :=
  processAll analysis s.output (readGroups analysis tree (regroup roots found))

/-- Files are read and processed in the order of their group, some of them being left out. -/
theorem map_path_textFiles_sublist (analysis : Analysis) (tree : Folder) (root : Text)
    (s : Settings) (own : Found) :
    ((textFiles analysis tree [root] s [own]).map TextFile.path).Sublist (Path.sort own.files) := by
  have hpaths : (textFiles analysis tree [root] s [own]).map TextFile.path =
      (Collect.readAll (analysis.guess root) Collect.defaultLimit tree root
        (Path.sort own.files)).map SourceFile.path := by
    rw [textFiles, regroup_singleton, processAll, readGroups, List.flatMap_singleton, List.map_map]
    rfl
  rw [hpaths]
  exact map_path_readAll_sublist _ _ _ _ _

/-- Sorted paths are in the order in which a listing shows the files.  So a document of one root has
its files in the order of its listing. -/
theorem sort_eq_filePaths {paths : List Text} (hplain : ∀ path ∈ paths, Listing.IsPlain path)
    (hapart : Path.Apart paths) (emptyDirs : List Text) :
    Path.sort paths = (Listing.build paths emptyDirs).filePaths ∧
      ∀ analysis tree root s,
        let files := textFiles analysis tree [root] s [⟨paths, emptyDirs⟩]
        let shownDirs := if s.output.includeEmptyDirectories then emptyDirs else []
        (assemble analysis tree [root] s [⟨paths, emptyDirs⟩]).document =
            Document.render s.output files paths emptyDirs ∧
          (files.map TextFile.path).Sublist (Listing.build paths shownDirs).filePaths := by
  have hlisting := Listing.filePaths_build_eq_sort hplain hapart
  refine ⟨(hlisting emptyDirs).symm, fun analysis tree root s => ⟨?_, ?_⟩⟩
  · rw [assemble, List.flatMap_singleton, List.flatMap_singleton]
    rfl
  · rw [hlisting]
    exact map_path_textFiles_sublist analysis tree root s ⟨paths, emptyDirs⟩

/-- Paths with a repeat, and with names that differ in their case only. -/
def mixedPaths : List Text :=
  [['r'], ['s', '/', 'b'], ['R'], ['s', '/', 'A'], ['r'], ['S', '/', 'c']]

theorem sort_mixedPaths :
    (∀ path ∈ mixedPaths, Listing.IsPlain path) ∧ Path.Apart mixedPaths ∧
      Path.sort mixedPaths = (Listing.build mixedPaths [['s', '/', 'e']]).filePaths ∧
      (Listing.build mixedPaths [['s', '/', 'e']]).filePaths =
        [['S', '/', 'c'], ['s', '/', 'A'], ['s', '/', 'b'], ['R'], ['r']] := by
  have hplain : ∀ path ∈ mixedPaths, Listing.IsPlain path := by
    unfold Listing.IsPlain
    decide
  have hapart : Path.Apart mixedPaths := by
    unfold Path.Apart
    decide
  exact ⟨hplain, hapart, (sort_eq_filePaths hplain hapart [['s', '/', 'e']]).1, by decide⟩

end SourceBundle.Bundle
