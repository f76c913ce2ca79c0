import SourceBundle.Proofs.Search.Outcomes

/-!
# What searches find

The files that a search finds are told by the tree, the settings and the ignore files alone
(`Selects`), with no mention of the walk: it prunes directories and hands scopes on, but a file is
found when it passes the patterns itself and no directory on the way to it is pruned or excluded.

Files of a tree are `Apart`, so their order is a total one, and a search gives each of them once,
whatever sorter it has.  That it gives them at all is certain when the empty directories settle.

A root that is written as a single dash is taken for the standard input, and the search finds
nothing, whatever directory has that name.
-/

namespace SourceBundle.Search

open Glob

/-! ## Selected files -/

/-- The ignore files in force below the root directory at a place. -/
def rulesBelow (tree : Folder) (root : Text) (place : Place) (s : Settings) : Guide :=
  guideFor tree root place s.ignore.useGitignore .empty

/-- The settings and the ignore files select the file at `names` below the root directory. -/
structure Selects (tree : Folder) (root : Text) (place : Place) (entries : Folder) (s : Settings)
    (names : List Text) : Prop where
  isFile : ∃ content, entries.at? names = some (.file content)
  included : ∃ raw ∈ includePatterns s.includes, acceptsFile raw (Text.join ['/'] names)
  notIgnored : ∀ raw ∈ ignorePatterns tree place s.ignore,
    acceptsFile raw (Text.join ['/'] names) = false
  notPruned : ∀ dir, dir ≠ [] → dir <+: names → dir ≠ names →
    ∀ raw ∈ ignorePatterns tree place s.ignore, acceptsDir raw (Text.join ['/'] dir) = false
  kept : (rulesBelow tree root place s).excludes names false = false
  dirsKept : ∀ dir, dir ≠ [] → dir <+: names → dir ≠ names →
    (rulesBelow tree root place s).excludes dir true = false

theorem excludes_guideFor (tree : Folder) (root : Text) (place : Place) (s : Settings)
    (ignores : PatternSet) (names : List Text) (isDir : Bool) :
    (guideFor tree root place s.ignore.useGitignore ignores).excludes names isDir =
      (rulesBelow tree root place s).excludes names isDir := rfl

section

variable {tree entries : Folder} {root : Text} {place : Place} {s : Settings}
  {includes ignores : PatternSet}

theorem enters_guideFor (hignores : ignores.AcceptsAsTexts (ignorePatterns tree place s.ignore))
    {dir : List Text} :
    (guideFor tree root place s.ignore.useGitignore ignores).enters dir ↔
      (rulesBelow tree root place s).excludes dir true = false ∧
        ∀ raw ∈ ignorePatterns tree place s.ignore,
          acceptsDir raw (Text.join ['/'] dir) = false := by
  have hprunes : (guideFor tree root place s.ignore.useGitignore ignores).prunes
      (Text.join ['/'] dir) = ignores.acceptsDir (Text.join ['/'] dir) := rfl
  rw [Guide.enters, excludes_guideFor, hprunes, hignores.dir]
  simp

/-- On the way to a file, directories are entered that are neither excluded nor pruned. -/
theorem reaches_file (hignores : ignores.AcceptsAsTexts (ignorePatterns tree place s.ignore))
    {names : List Text} :
    (guideFor tree root place s.ignore.useGitignore ignores).Reaches [] names false ↔
      (rulesBelow tree root place s).excludes names false = false ∧
        ∀ dir, dir ≠ [] → dir <+: names → dir ≠ names →
          (rulesBelow tree root place s).excludes dir true = false ∧
            ∀ raw ∈ ignorePatterns tree place s.ignore,
              acceptsDir raw (Text.join ['/'] dir) = false := by
  constructor
  · intro h
    refine ⟨h.kept, fun dir hne hpre hother => ?_⟩
    exact (enters_guideFor hignores).1 (h.entered dir hne hpre hother)
  · rintro ⟨kept, dirs⟩
    refine ⟨kept, Bool.false_ne_true.elim, ?_⟩
    exact fun dir hne hpre hother => (enters_guideFor hignores).2 (dirs dir hne hpre hother)

theorem selectsFile_iff (hincludes : includes.AcceptsAsTexts (includePatterns s.includes))
    (hignores : ignores.AcceptsAsTexts (ignorePatterns tree place s.ignore)) {v : Visit} :
    selectsFile includes ignores v ↔
      (∃ content, v.entry = .file content) ∧
        (∃ raw ∈ includePatterns s.includes, acceptsFile raw v.path) ∧
        ∀ raw ∈ ignorePatterns tree place s.ignore, acceptsFile raw v.path = false := by
  have hpatterns : (includes.acceptsFile v.path && !ignores.acceptsFile v.path) = true ↔
      (∃ raw ∈ includePatterns s.includes, acceptsFile raw v.path) ∧
        ∀ raw ∈ ignorePatterns tree place s.ignore, acceptsFile raw v.path = false := by
    rw [hincludes.file, hignores.file]
    simp
  rw [← hpatterns, selectsFile]
  cases v.entry <;> simp

/-- What the walk visits and the patterns let through is what the settings select. -/
theorem exists_visit_iff (hproper : entries.isProper)
    (hinput : (rulesBelow tree root place s).isInput = false)
    (hincludes : includes.AcceptsAsTexts (includePatterns s.includes))
    (hignores : ignores.AcceptsAsTexts (ignorePatterns tree place s.ignore)) {names : List Text} :
    (∃ v ∈ walk (guideFor tree root place s.ignore.useGitignore ignores) entries,
        selectsFile includes ignores v ∧ v.names = names) ↔
      Selects tree root place entries s names := by
  have hinput' : (guideFor tree root place s.ignore.useGitignore ignores).isInput = false := hinput
  constructor
  · rintro ⟨v, hv, hselects, rfl⟩
    obtain ⟨-, hat, hreach⟩ := (mem_walk hproper hinput').1 hv
    obtain ⟨⟨content, hentry⟩, hin, hout⟩ := (selectsFile_iff hincludes hignores).1 hselects
    rw [hentry] at hat hreach
    obtain ⟨kept, dirs⟩ := (reaches_file hignores).1 hreach
    exact
      { isFile := ⟨content, hat⟩
        included := hin
        notIgnored := hout
        notPruned := fun dir hne hpre hother => (dirs dir hne hpre hother).2
        kept := kept
        dirsKept := fun dir hne hpre hother => (dirs dir hne hpre hother).1 }
  · intro h
    obtain ⟨content, hat⟩ := h.isFile
    have hne : names ≠ [] := by
      rintro rfl
      cases hat
    have hreach : (guideFor tree root place s.ignore.useGitignore ignores).Reaches [] names false :=
      (reaches_file hignores).2 ⟨h.kept, fun dir hne hpre hother =>
        ⟨h.dirsKept dir hne hpre hother, h.notPruned dir hne hpre hother⟩⟩
    refine ⟨⟨names, .file content⟩, (mem_walk hproper hinput').2 ⟨hne, hat, hreach⟩, ?_, rfl⟩
    exact (selectsFile_iff hincludes hignores).2 ⟨⟨content, rfl⟩, h.included, h.notIgnored⟩

/-- The files that a search gathers are selected. -/
theorem selects_of_mem_files {o : Overrides} (hs : o.merge = .ok s)
    (hroot : rootFolder tree root = .ok (place, entries)) (hproper : entries.isProper)
    {gathered : Found} (hgather : gather tree root s = .ok gathered) {path : Text}
    (hpath : path ∈ gathered.files) :
    ∃ names, path = Text.join ['/'] names ∧ Selects tree root place entries s names := by
  obtain ⟨includes, ignores, hin, hout, rfl⟩ := exists_sets_of_gather hs hroot hgather
  obtain ⟨v, hv, rfl⟩ := List.mem_map.mp hpath
  obtain ⟨hv, hselects⟩ := List.mem_filter.mp hv
  cases hinput : (rulesBelow tree root place s).isInput with
  | false =>
    exact ⟨v.names, rfl, (exists_visit_iff hproper hinput hin hout).1 ⟨v, hv, hselects, rfl⟩⟩
  | true =>
    -- The root stands for the standard input, and nothing is visited.
    have hwalk : walk (guideFor tree root place s.ignore.useGitignore ignores) entries = [] :=
      if_pos hinput
    rw [hwalk] at hv
    cases hv

/-- Below a root that is no standard input, every selected file is gathered. -/
theorem mem_files_of_gather {o : Overrides} (hs : o.merge = .ok s)
    (hroot : rootFolder tree root = .ok (place, entries)) (hproper : entries.isProper)
    (hinput : (rulesBelow tree root place s).isInput = false) {gathered : Found}
    (hgather : gather tree root s = .ok gathered) {path : Text} :
    path ∈ gathered.files ↔
      ∃ names, path = Text.join ['/'] names ∧ Selects tree root place entries s names := by
  refine ⟨selects_of_mem_files hs hroot hproper hgather, ?_⟩
  rintro ⟨names, rfl, hselects⟩
  obtain ⟨includes, ignores, hin, hout, rfl⟩ := exists_sets_of_gather hs hroot hgather
  obtain ⟨v, hv, hchosen, rfl⟩ := (exists_visit_iff hproper hinput hin hout).2 hselects
  exact List.mem_map.mpr ⟨v, List.mem_filter.mpr ⟨hv, hchosen⟩, rfl⟩

/-- The names of a selected file are those of its path. -/
theorem Selects.components_join {names : List Text} (h : Selects tree root place entries s names)
    (hproper : entries.isProper) : Path.components (Text.join ['/'] names) = names := by
  obtain ⟨content, hat⟩ := h.isFile
  refine SourceBundle.components_join ?_ (Folder.slash_not_mem hproper hat)
  rintro rfl
  cases hat

/-- A search finds the files that are selected, each once and in ascending order. -/
theorem files_run (sorter : Path.Sorter) {o : Overrides} (hs : o.merge = .ok s)
    (hroot : rootFolder tree root = .ok (place, entries)) (hproper : entries.isProper)
    (hinput : (rulesBelow tree root place s).isInput = false) :
    (DirsSettle tree root s → (runBy sorter tree root s).isSome) ∧
      ∀ outcome ∈ runBy sorter tree root s, ∃ found, outcome = .ok found ∧
        found.files.Pairwise (fun p q => Path.compare p q = .lt) ∧
        ∀ path, path ∈ found.files ↔
          ∃ names, path = Text.join ['/'] names ∧ Selects tree root place entries s names := by
  refine ⟨isSome_runBy sorter hroot hproper, fun outcome houtcome => ?_⟩
  obtain ⟨gathered, hgather⟩ := exists_gather hs hroot
  obtain ⟨found, rfl, hfiles, -⟩ := exists_of_mem_runBy hgather houtcome
  have hapart := apart_files_of_gather hroot hproper hgather
  have hsorted : Path.sort gathered.files = found.files := by
    rw [sorter.sort?_of_isSettled hapart.isSettled] at hfiles
    exact Option.some.inj hfiles
  refine ⟨found, rfl, ?_, fun path => ?_⟩
  · rw [← hsorted]
    exact hapart.isTransitiveOn.pairwise_sort
  · rw [← hsorted, Path.mem_sort, mem_files_of_gather hs hroot hproper hinput hgather]

end

/-! ## Two small trees -/

/-- Overrides that leave out what lies below a directory `t`. -/
def withoutT : Overrides :=
  { ignore := some { useDefaultPatterns := some false, customPatterns := some [['t', '/']] } }

/-- A directory with a file, a link to it, a directory that `withoutT` leaves out, and one with an
ignore file of its own that names `z`. -/
def gardenEntries : Folder :=
  [(['a'], .file ⟨#[]⟩), (['l'], .link ['a']), (['t'], .folder [(['x'], .file ⟨#[]⟩)]),
    (['d'], .folder [(ownIgnoreName, .file ⟨#[122]⟩), (['y'], .file ⟨#[]⟩), (['z'], .file ⟨#[]⟩)])]

/-- The tree with `gardenEntries` in the directory `p`. -/
def gardenTree : Folder := [(['p'], .folder gardenEntries)]

theorem files_run_garden :
    withoutT.merge = .ok withoutT.settings ∧
      rootFolder gardenTree ['p'] = .ok ([['p']], gardenEntries) ∧
      gardenEntries.isProper ∧
      (rulesBelow gardenTree ['p'] [['p']] withoutT.settings).isInput = false ∧
      run gardenTree ['p'] withoutT.settings =
        .ok ⟨[['d', '/'] ++ ownIgnoreName, ['d', '/', 'y'], ['a']], []⟩ ∧
      (∀ sorter, (runBy sorter gardenTree ['p'] withoutT.settings).isSome) ∧
      ∀ path, path ∈ [['d', '/'] ++ ownIgnoreName, ['d', '/', 'y'], ['a']] ↔
        ∃ names, path = Text.join ['/'] names ∧
          Selects gardenTree ['p'] [['p']] gardenEntries withoutT.settings names := by
  have hmerge : withoutT.merge = .ok withoutT.settings := rfl
  have hroot : rootFolder gardenTree ['p'] = .ok ([['p']], gardenEntries) := rfl
  have hproper : gardenEntries.isProper := by decide
  have hinput : (rulesBelow gardenTree ['p'] [['p']] withoutT.settings).isInput = false := by
    decide
  have hrun : run gardenTree ['p'] withoutT.settings =
      .ok ⟨[['d', '/'] ++ ownIgnoreName, ['d', '/', 'y'], ['a']], []⟩ := rfl
  have hby : runBy .insertion gardenTree ['p'] withoutT.settings =
      some (.ok ⟨[['d', '/'] ++ ownIgnoreName, ['d', '/', 'y'], ['a']], []⟩) := by
    rw [runBy_insertion, hrun]
  obtain ⟨found, hfound, -, hmem⟩ := (files_run .insertion hmerge hroot hproper hinput).2 _ hby
  obtain rfl := Except.ok.inj hfound
  refine ⟨hmerge, hroot, hproper, hinput, hrun, fun sorter => ?_, hmem⟩
  exact (files_run sorter hmerge hroot hproper hinput).1 (dirsSettle_of_not_demanded rfl)

/-- The tree with a file `a` in a directory `-`. -/
def dashTree : Folder := [(['-'], .folder [(['a'], .file ⟨#[]⟩)])]

/-- The file below the directory `-` is selected and not found. -/
theorem run_dash :
    withoutT.merge = .ok withoutT.settings ∧
      rootFolder dashTree ['-'] = .ok ([['-']], [(['a'], .file ⟨#[]⟩)]) ∧
      Folder.isProper [(['a'], .file ⟨#[]⟩)] ∧
      Selects dashTree ['-'] [['-']] [(['a'], .file ⟨#[]⟩)] withoutT.settings [['a']] ∧
      run dashTree ['-'] withoutT.settings = .ok ⟨[], []⟩ := by
  have alone : ∀ dir : List Text, dir ≠ [] → dir <+: [['a']] → dir = [['a']] := by
    intro dir hne hpre
    obtain ⟨rest, rfl, hrest⟩ := (List.prefix_cons_iff.mp hpre).resolve_left hne
    rw [List.prefix_nil.mp hrest]
  refine ⟨rfl, rfl, by decide, ?_, rfl⟩
  exact
    { isFile := ⟨⟨#[]⟩, rfl⟩
      included := by decide
      notIgnored := by decide
      notPruned := fun dir hne hpre hother => absurd (alone dir hne hpre) hother
      kept := by decide
      dirsKept := fun dir hne hpre hother => absurd (alone dir hne hpre) hother }

end SourceBundle.Search
