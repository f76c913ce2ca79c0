import SourceBundle.Proofs.Search.Files

/-!
# Settings that let fewer files through

More ignore patterns, the built-in patterns and the ignore files of the repository can only take
files out of a search, and more include patterns can only add some.

For the patterns this is a matter of sets: each change of the settings makes the ignore patterns a
larger set and the include patterns a smaller one, whether or not the pattern for the repository's
own directory gives way to the one for a file (`ignorePatterns_subset`).  The ignore files of the
repository come after the search's own ones, whose verdict is the same with and without them; so an
entry that is ignored without them stays so with them, whatever they keep (`isIgnored_load`).

A walk that excludes and prunes more visits a part of what the other one visits
(`visitAll_sublist`), which is all that the files depend on.
-/

namespace SourceBundle.Search

open Glob

/-! ## Lists of patterns -/

theorem mem_firstSeen {seen texts : List Text} {t : Text} :
    t ∈ firstSeen seen texts ↔ t ∈ texts ∧ t ∉ seen := by
  induction texts generalizing seen with
  | nil => simp [firstSeen]
  | cons first rest ih =>
    rw [firstSeen]
    by_cases hfirst : first ∈ seen
    · rw [if_pos (by simpa using hfirst), ih, List.mem_cons]
      constructor
      · exact fun h => ⟨.inr h.1, h.2⟩
      · rintro ⟨rfl | h, hnew⟩
        · exact absurd hfirst hnew
        · exact ⟨h, hnew⟩
    · rw [if_neg (by simpa using hfirst), List.mem_cons, ih, List.mem_cons, List.mem_cons]
      by_cases same : t = first
      · simp [same, hfirst]
      · simp [same]

theorem nodup_firstSeen (seen texts : List Text) : (firstSeen seen texts).Nodup := by
  induction texts generalizing seen with
  | nil => exact List.nodup_nil
  | cons first rest ih =>
    rw [firstSeen]
    split
    · exact ih seen
    · refine List.nodup_cons.mpr ⟨fun h => ?_, ih _⟩
      exact (mem_firstSeen.mp h).2 List.mem_cons_self

/-- The exchange concerns the pattern for the repository's directory only. -/
theorem mem_swapGitPattern_of_ne {patterns : List Text} {t : Text} (hne : t ≠ gitPattern)
    (ht : t ∈ patterns) : t ∈ swapGitPattern patterns := by
  rw [swapGitPattern]
  split
  · exact List.mem_append_left _ ((List.mem_erase_of_ne hne).mpr ht)
  · exact ht

/-- The exchange of the pattern for the repository's directory keeps one list part of another. -/
theorem swapGitPattern_mono {patterns more : List Text} (hnodup : patterns.Nodup)
    (hsub : patterns ⊆ more) : swapGitPattern patterns ⊆ swapGitPattern more := by
  intro t ht
  rw [swapGitPattern] at ht
  split at ht
  · rename_i hgit
    have hgit' : more.contains gitPattern := by
      rw [List.contains_iff_mem] at hgit ⊢
      exact hsub hgit
    rcases List.mem_append.mp ht with ht | ht
    · obtain ⟨hne, ht⟩ := hnodup.mem_erase_iff.mp ht
      exact mem_swapGitPattern_of_ne hne (hsub ht)
    · rw [swapGitPattern, if_pos hgit']
      exact List.mem_append_right _ ht
  · rename_i hgit
    refine mem_swapGitPattern_of_ne ?_ (hsub ht)
    rintro rfl
    exact hgit (List.contains_iff_mem.mpr ht)

/-- The patterns that the settings name, before one may give way to another. -/
def namedPatterns (s : IgnoreSettings) : List Text :=
  (if s.useDefaultPatterns then DefaultPatterns.all.map String.toList else []) ++ s.customPatterns

theorem ignorePatterns_eq (tree : Folder) (root : List Text) (s : IgnoreSettings) :
    ignorePatterns tree root s =
      if isWorktreeRoot tree root then swapGitPattern (firstSeen [] (namedPatterns s))
      else firstSeen [] (namedPatterns s) := rfl

theorem ignorePatterns_subset {s more : IgnoreSettings} (h : namedPatterns s ⊆ namedPatterns more)
    (tree : Folder) (root : List Text) :
    ignorePatterns tree root s ⊆ ignorePatterns tree root more := by
  have hseen : firstSeen [] (namedPatterns s) ⊆ firstSeen [] (namedPatterns more) := by
    intro t ht
    rw [mem_firstSeen] at ht ⊢
    exact ⟨h ht.1, ht.2⟩
  rw [ignorePatterns_eq, ignorePatterns_eq]
  split
  · exact swapGitPattern_mono (nodup_firstSeen _ _) hseen
  · exact hseen

/-! ## Stricter walks -/

/-- A walk that excludes and prunes all that another one does. -/
structure Guide.StricterThan (strict lax : Guide) : Prop where
  isInput : strict.isInput = lax.isInput
  excludes : ∀ names isDir, lax.excludes names isDir → strict.excludes names isDir
  prunes : ∀ path, lax.prunes path → strict.prunes path

section

variable {strict lax : Guide}

theorem Guide.StricterThan.enters (h : strict.StricterThan lax) {dir : List Text}
    (hdir : strict.enters dir) : lax.enters dir := by
  rw [Guide.enters, Bool.and_eq_true, Bool.not_eq_true', Bool.not_eq_true'] at hdir ⊢
  rw [Bool.eq_false_iff, Bool.eq_false_iff] at hdir ⊢
  exact ⟨fun hlax => hdir.1 (h.excludes _ _ hlax), fun hlax => hdir.2 (h.prunes _ hlax)⟩

theorem visitEntry_sublist_of_not_isFolder (h : strict.StricterThan lax) {e : Entry}
    (he : e.isFolder = false) (here : List Text) (name : Text) :
    (visitEntry strict (strict.scopesIn here) here name e).Sublist
      (visitEntry lax (lax.scopesIn here) here name e) := by
  rw [visitEntry_of_not_isFolder he, visitEntry_of_not_isFolder he]
  by_cases hlax : lax.excludes (here ++ [name]) false
  · rw [if_pos hlax, if_pos (h.excludes _ _ hlax)]
  · rw [if_neg hlax]
    split
    · exact List.nil_sublist _
    · exact List.Sublist.refl _

mutual

theorem visitEntry_sublist (h : strict.StricterThan lax) (here : List Text) (name : Text) :
    (e : Entry) → (visitEntry strict (strict.scopesIn here) here name e).Sublist
      (visitEntry lax (lax.scopesIn here) here name e)
  | .file _ => visitEntry_sublist_of_not_isFolder h rfl here name
  | .link _ => visitEntry_sublist_of_not_isFolder h rfl here name
  | .folder entries => by
    rw [visitEntry_folder, visitEntry_folder]
    by_cases hstrict : strict.enters (here ++ [name])
    · rw [if_pos hstrict, if_pos (h.enters hstrict)]
      exact (visitAll_sublist h (here ++ [name]) entries).cons_cons _
    · rw [if_neg hstrict]
      exact List.nil_sublist _

theorem visitAll_sublist (h : strict.StricterThan lax) (here : List Text) :
    (entries : Folder) → (visitAll strict (strict.scopesIn here) here entries).Sublist
      (visitAll lax (lax.scopesIn here) here entries)
  | [] => List.Sublist.refl _
  | (name, e) :: rest => by
    rw [visitAll, visitAll]
    exact (visitEntry_sublist h here name e).append (visitAll_sublist h here rest)

end

/-- A stricter walk visits a part of what the other one visits, in the same order. -/
theorem walk_sublist (h : strict.StricterThan lax) (entries : Folder) :
    (walk strict entries).Sublist (walk lax entries) := by
  rw [walk, walk, h.isInput]
  split
  · exact List.Sublist.refl _
  · exact visitAll_sublist h [] entries

end

/-! ## More ignore files -/

theorem verdictOf?_of_no_rules {kind : Level → IgnoreFile.Rules} {scopes : List Scope}
    (h : ∀ scope ∈ scopes, kind scope.level = []) (path : Text) (isDir : Bool) :
    verdictOf? kind scopes path isDir = none := by
  rw [verdictOf?, List.findSome?_eq_none_iff]
  intro scope hscope
  rw [h scope hscope]
  rfl

/-- What is ignored without the ignore files of the repository is ignored with them. -/
theorem isIgnored_load {tree : Folder} {place : Place} {pathOf : List Text → Text}
    {dirs : List (List Text)} {path : Text} {isDir : Bool} :
    isIgnored (dirs.map fun dir => ⟨pathOf dir, Level.load tree false (place ++ dir)⟩) path isDir →
      isIgnored (dirs.map fun dir => ⟨pathOf dir, Level.load tree true (place ++ dir)⟩) path
        isDir := by
  have hown : ∀ useGitignore,
      verdictOf? Level.own
          (dirs.map fun dir => ⟨pathOf dir, Level.load tree useGitignore (place ++ dir)⟩) path isDir =
        dirs.findSome? fun dir =>
          (rulesOf (FileTree.contentAt? tree (place ++ dir ++ [ownIgnoreName]))).verdict?
            (pathSeenFrom (pathOf dir) path) isDir := by
    intro useGitignore
    rw [verdictOf?, List.findSome?_map]
    rfl
  have hgitignore : verdictOf? Level.gitignore
      (dirs.map fun dir => ⟨pathOf dir, Level.load tree false (place ++ dir)⟩) path isDir = none :=
    verdictOf?_of_no_rules (List.forall_mem_map.mpr fun dir _ => rfl) path isDir
  have hexclude : verdictOf? Level.exclude
      (dirs.map fun dir => ⟨pathOf dir, Level.load tree false (place ++ dir)⟩) path isDir = none :=
    verdictOf?_of_no_rules (List.forall_mem_map.mpr fun dir _ => rfl) path isDir
  intro h
  rw [isIgnored, hgitignore, hexclude, hown] at h
  have hignored : (dirs.findSome? fun dir =>
      (rulesOf (FileTree.contentAt? tree (place ++ dir ++ [ownIgnoreName]))).verdict?
        (pathSeenFrom (pathOf dir) path) isDir) = some true := by simpa using h
  rw [isIgnored, hown, hignored]
  rfl

/-! ## Narrower settings -/

/-- The settings let at most those files through that `wide` does. -/
structure NarrowerThan (narrow wide : Settings) : Prop where
  includes : includePatterns narrow.includes ⊆ includePatterns wide.includes
  ignores : namedPatterns wide.ignore ⊆ namedPatterns narrow.ignore
  gitignore : wide.ignore.useGitignore → narrow.ignore.useGitignore

section

variable {narrow wide : Settings} {tree : Folder} {root : Text} {place : Place}

theorem NarrowerThan.excludes (h : NarrowerThan narrow wide) {names : List Text} {isDir : Bool}
    (hwide : (rulesBelow tree root place wide).excludes names isDir) :
    (rulesBelow tree root place narrow).excludes names isDir := by
  have hscopes : ∀ s : Settings, (rulesBelow tree root place s).excludes names isDir =
      isIgnored ((names.dropLast.inits.reverse).map fun dir =>
          ⟨dir.foldl entryPath root, Level.load tree s.ignore.useGitignore (place ++ dir)⟩)
        (names.foldl entryPath root) isDir := by
    intro s
    rw [Guide.excludes, Guide.ignores, Guide.scopesIn, ← List.map_reverse]
    rfl
  rw [hscopes] at hwide ⊢
  cases hw : wide.ignore.useGitignore with
  | true =>
    rw [hw] at hwide
    rwa [h.gitignore hw]
  | false =>
    rw [hw] at hwide
    cases hn : narrow.ignore.useGitignore with
    | true => exact isIgnored_load hwide
    | false => exact hwide

theorem NarrowerThan.stricterThan (h : NarrowerThan narrow wide) {few many : PatternSet}
    (hfew : few.AcceptsAsTexts (ignorePatterns tree place wide.ignore))
    (hmany : many.AcceptsAsTexts (ignorePatterns tree place narrow.ignore)) :
    (guideFor tree root place narrow.ignore.useGitignore many).StricterThan
      (guideFor tree root place wide.ignore.useGitignore few) where
  isInput := rfl
  excludes names isDir hwide := by
    rw [excludes_guideFor] at hwide ⊢
    exact h.excludes hwide
  prunes path hpath := by
    have hfew' : few.acceptsDir path := hpath
    have hmany' : many.acceptsDir path := by
      rw [hfew.dir, List.any_eq_true] at hfew'
      obtain ⟨raw, hraw, haccepts⟩ := hfew'
      rw [hmany.dir, List.any_eq_true]
      exact ⟨raw, ignorePatterns_subset h.ignores tree place hraw, haccepts⟩
    exact hmany'

theorem NarrowerThan.selectsFile (h : NarrowerThan narrow wide)
    {includes includes' ignores ignores' : PatternSet}
    (hincludes : includes.AcceptsAsTexts (includePatterns narrow.includes))
    (hincludes' : includes'.AcceptsAsTexts (includePatterns wide.includes))
    (hignores : ignores.AcceptsAsTexts (ignorePatterns tree place narrow.ignore))
    (hignores' : ignores'.AcceptsAsTexts (ignorePatterns tree place wide.ignore)) {v : Visit}
    (hv : selectsFile includes ignores v) : Search.selectsFile includes' ignores' v := by
  rw [selectsFile_iff hincludes hignores] at hv
  obtain ⟨hfile, ⟨raw, hraw, haccepts⟩, hnone⟩ := hv
  refine (selectsFile_iff hincludes' hignores').mpr ⟨hfile, ⟨raw, h.includes hraw, haccepts⟩, ?_⟩
  exact fun raw hraw => hnone raw (ignorePatterns_subset h.ignores tree place hraw)

/-- Searches with narrower settings gather no other files. -/
theorem NarrowerThan.files_subset (h : NarrowerThan narrow wide)
    (hnarrow : ∃ o : Overrides, o.merge = .ok narrow) (hwide : ∃ o : Overrides, o.merge = .ok wide)
    {entries : Folder} (hroot : rootFolder tree root = .ok (place, entries))
    {gathered gathered' : Found} (hgather : gather tree root narrow = .ok gathered)
    (hgather' : gather tree root wide = .ok gathered') : gathered.files ⊆ gathered'.files := by
  obtain ⟨o, ho⟩ := hnarrow
  obtain ⟨o', ho'⟩ := hwide
  obtain ⟨includes, ignores, hincludes, hignores, rfl⟩ := exists_sets_of_gather ho hroot hgather
  obtain ⟨includes', ignores', hincludes', hignores', rfl⟩ :=
    exists_sets_of_gather ho' hroot hgather'
  intro path hpath
  rw [List.mem_map] at hpath ⊢
  obtain ⟨v, hv, rfl⟩ := hpath
  obtain ⟨hvisited, hselects⟩ := List.mem_filter.mp hv
  have hvisited' := (walk_sublist (h.stricterThan hignores' hignores) entries).subset hvisited
  have hselects' := h.selectsFile hincludes hincludes' hignores hignores' hselects
  exact ⟨v, List.mem_filter.mpr ⟨hvisited', hselects'⟩, rfl⟩

end

/-! ## Single changes -/

/-- One change of the settings after which a search is to find no other files than before. -/
inductive Narrows : Settings → Settings → Prop
  /-- A custom pattern is added to the ignore patterns. -/
  | customPattern (s : Settings) (raw : Text) :
    Narrows s { s with ignore :=
      { s.ignore with customPatterns := s.ignore.customPatterns ++ [raw] } }
  /-- The built-in ignore patterns are turned on. -/
  | defaultPatterns (s : Settings) :
    Narrows s { s with ignore := { s.ignore with useDefaultPatterns := true } }
  /-- The ignore files of the repository are turned on. -/
  | gitignore (s : Settings) :
    Narrows s { s with ignore := { s.ignore with useGitignore := true } }
  /-- An include pattern that stood behind others is taken away. -/
  | includePattern (s : Settings) (raw : Text) (h : s.includes ≠ []) :
    Narrows { s with includes := s.includes ++ [raw] } s

theorem Narrows.narrowerThan {wide narrow : Settings} (h : Narrows wide narrow) :
    NarrowerThan narrow wide := by
  cases h with
  | customPattern raw =>
    refine ⟨List.Subset.refl _, ?_, id⟩
    rw [namedPatterns, namedPatterns, ← List.append_assoc]
    exact List.subset_append_left _ _
  | defaultPatterns =>
    refine ⟨List.Subset.refl _, ?_, id⟩
    rw [namedPatterns, namedPatterns, if_pos rfl]
    refine List.append_subset.mpr ⟨?_, List.subset_append_right _ _⟩
    split
    · exact List.subset_append_left _ _
    · exact List.nil_subset _
  | gitignore => exact ⟨List.Subset.refl _, List.Subset.refl _, fun _ => rfl⟩
  | includePattern _ raw hne =>
    refine ⟨?_, List.Subset.refl _, id⟩
    have hmany : (narrow.includes ++ [raw]).isEmpty = false := by simp
    have hfew : narrow.includes.isEmpty = false := by simpa using hne
    rw [includePatterns, includePatterns, hmany, hfew, List.map_append]
    exact List.subset_append_left _ _

/-- More ignore patterns, the built-in patterns or the ignore files of the repository never add a
file to a search, and another include pattern never takes one away.  Whether the search fails does
not depend on them. -/
theorem files_subset_of_narrows (sorter : Path.Sorter) {wide narrow : Settings}
    (h : Narrows wide narrow) (hwide : ∃ o : Overrides, o.merge = .ok wide)
    (hnarrow : ∃ o : Overrides, o.merge = .ok narrow) (tree : Folder) (root : Text) :
    (tree.isProper → ∀ s ∈ [wide, narrow], DirsSettle tree root s →
        (runBy sorter tree root s).isSome) ∧
      ∀ before ∈ runBy sorter tree root wide, ∀ after ∈ runBy sorter tree root narrow,
        (∃ fault, before = .error fault ∧ after = .error fault) ∨
          ∃ found found', before = .ok found ∧ after = .ok found' ∧
            found'.files ⊆ found.files := by
  constructor
  · intro hproper s _ hdirs
    rw [runBy_eq_run sorter (fun gathered => apart_files_of_isProper hproper) hdirs,
      Option.isSome_some]
  intro before hbefore after hafter
  cases hroot : rootFolder tree root with
  | error fault =>
    rw [runBy_of_gather_error (gather_of_rootFolder_error hroot _)] at hbefore hafter
    exact .inl ⟨fault, (Option.some.inj hbefore).symm, (Option.some.inj hafter).symm⟩
  | ok start =>
    obtain ⟨place, entries⟩ := start
    obtain ⟨o, ho⟩ := hwide
    obtain ⟨o', ho'⟩ := hnarrow
    obtain ⟨gathered, hgather⟩ := exists_gather ho hroot
    obtain ⟨gathered', hgather'⟩ := exists_gather ho' hroot
    obtain ⟨found, rfl, hfiles, -⟩ := exists_of_mem_runBy hgather hbefore
    obtain ⟨found', rfl, hfiles', -⟩ := exists_of_mem_runBy hgather' hafter
    refine .inr ⟨found, found', rfl, rfl, fun path hpath => ?_⟩
    rw [Path.Sorter.mem_of_sort? hfiles'] at hpath
    rw [Path.Sorter.mem_of_sort? hfiles]
    exact h.narrowerThan.files_subset ⟨o', ho'⟩ ⟨o, ho⟩ hroot hgather' hgather hpath

/-- Overrides that turn the built-in patterns and the ignore files of the repository off. -/
def bareOverrides : Overrides :=
  { ignore := some { useGitignore := some false, useDefaultPatterns := some false } }

/-- A directory whose `.gitignore` ignores all but `b`, and whose own ignore file keeps `c`. -/
def keepingEntries : Folder :=
  [(".gitignore".toList, .file ⟨#[42, 10, 33, 98]⟩), (ownIgnoreName, .file ⟨#[33, 99]⟩),
    (['a'], .file ⟨#[]⟩), (['b'], .file ⟨#[]⟩), (['c'], .file ⟨#[]⟩)]

theorem files_subset_of_keeping_gitignore :
    let wide := bareOverrides.settings
    let narrow := { wide with ignore := { wide.ignore with useGitignore := true } }
    Narrows wide narrow ∧
      (∃ o : Overrides, o.merge = .ok wide) ∧ (∃ o : Overrides, o.merge = .ok narrow) ∧
      run [(['p'], .folder keepingEntries)] ['p'] wide =
        .ok ⟨[ownIgnoreName, ".gitignore".toList, ['a'], ['b'], ['c']], []⟩ ∧
      run [(['p'], .folder keepingEntries)] ['p'] narrow = .ok ⟨[['b'], ['c']], []⟩ ∧
      [['b'], ['c']] ⊆ [ownIgnoreName, ".gitignore".toList, ['a'], ['b'], ['c']] := by
  intro wide narrow
  have hnarrows : Narrows wide narrow := .gitignore wide
  have hwide : ∃ o : Overrides, o.merge = .ok wide := ⟨bareOverrides, rfl⟩
  have hnarrow : ∃ o : Overrides, o.merge = .ok narrow :=
    ⟨{ ignore := some { useDefaultPatterns := some false } }, rfl⟩
  have hrun : run [(['p'], .folder keepingEntries)] ['p'] wide =
      .ok ⟨[ownIgnoreName, ".gitignore".toList, ['a'], ['b'], ['c']], []⟩ := by decide +kernel
  have hrun' : run [(['p'], .folder keepingEntries)] ['p'] narrow = .ok ⟨[['b'], ['c']], []⟩ := by
    decide +kernel
  refine ⟨hnarrows, hwide, hnarrow, hrun, hrun', ?_⟩
  have houtcomes := (files_subset_of_narrows .insertion hnarrows hwide hnarrow
    [(['p'], .folder keepingEntries)] ['p']).2 _ (runBy_insertion _ _ _) _ (runBy_insertion _ _ _)
  rw [hrun, hrun'] at houtcomes
  rcases houtcomes with ⟨fault, hfault, -⟩ | ⟨found, found', hfound, hfound', hsub⟩
  · cases hfault
  · obtain rfl := Except.ok.inj hfound
    obtain rfl := Except.ok.inj hfound'
    exact hsub

end SourceBundle.Search
