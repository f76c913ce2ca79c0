import SourceBundle.Proofs.Glob.DirectoryForms
import SourceBundle.Proofs.Search.Files
import SourceBundle.Proofs.Text.Pieces

/-!
# What pruning leaves out

A search does not enter the directories that an ignore pattern accepts, and it does not report the
files that one accepts.  With patterns for all that lies in a directory, the first is a matter of
effort only: whatever is left out by not entering a directory would be left out for itself
(`files_run_eq_unpruned`).

Of a walk this is shown for any choice of visits (`filter_visitAll`).  What is visited below a
directory has a path below that of the directory; so if nothing is chosen that has such a path, the
walk that enters the directory and the one that does not are the same for what is chosen.

There are pattern texts for all that lies in a directory that are worse than their look.  With `**//`
a search finds nothing in any directory, and the pattern accepts none of the files there
(`run_doubleSlash`).
-/

namespace SourceBundle.Search

open Glob

/-! ## Walks that enter every directory -/

/-- The same guide with every directory entered that the ignore files keep. -/
def Guide.unpruned (guide : Guide) : Guide := { guide with prunes := fun _ => false }

/-- No visit that is chosen is to a directory, or to an entry below one that is pruned. -/
structure Guide.PrunesNone (guide : Guide) (chosen : Visit → Bool) : Prop where
  folder : ∀ names entries, chosen ⟨names, .folder entries⟩ = false
  below : ∀ (v : Visit) dir rest, v.names = dir ++ rest → dir ≠ [] → rest ≠ [] →
    guide.prunes (Text.join ['/'] dir) → chosen v = false

section

variable {guide : Guide}

mutual

/-- What is visited at an entry has the names of the entry in front. -/
theorem exists_names_of_mem_visitEntry {v : Visit} (scopes : List Scope) (here : List Text)
    (name : Text) :
    (e : Entry) → v ∈ visitEntry guide scopes here name e → ∃ rest, v.names = here ++ name :: rest
  | .file content, h => by
    rw [visitEntry, List.mem_ite_nil_left, List.mem_singleton] at h
    exact ⟨[], by rw [h.2]⟩
  | .link target, h => by
    rw [visitEntry, List.mem_ite_nil_left, List.mem_singleton] at h
    exact ⟨[], by rw [h.2]⟩
  | .folder entries, h => by
    rw [visitEntry, List.mem_ite_nil_left, List.mem_cons] at h
    rcases h.2 with rfl | hbelow
    · exact ⟨[], rfl⟩
    · obtain ⟨rest, -, hrest⟩ := exists_names_of_mem_visitAll _ (here ++ [name]) entries hbelow
      exact ⟨rest, by rw [hrest, ← List.append_cons]⟩

/-- What is visited in a directory lies below it. -/
theorem exists_names_of_mem_visitAll {v : Visit} (scopes : List Scope) (here : List Text) :
    (entries : Folder) → v ∈ visitAll guide scopes here entries →
      ∃ rest, rest ≠ [] ∧ v.names = here ++ rest
  | [], h => by
    rw [visitAll] at h
    exact absurd h List.not_mem_nil
  | (name, e) :: others, h => by
    rw [visitAll, List.mem_append] at h
    rcases h with h | h
    · obtain ⟨rest, hrest⟩ := exists_names_of_mem_visitEntry scopes here name e h
      exact ⟨name :: rest, List.cons_ne_nil _ _, hrest⟩
    · exact exists_names_of_mem_visitAll scopes here others h

end

mutual

theorem filter_visitEntry {chosen : Visit → Bool} (hnone : guide.PrunesNone chosen)
    (scopes : List Scope) (here : List Text) (name : Text) :
    (e : Entry) → (visitEntry guide scopes here name e).filter chosen =
      (visitEntry guide.unpruned scopes here name e).filter chosen
  | .file _ => rfl
  | .link _ => rfl
  | .folder entries => by
    have hignores : guide.unpruned.ignores scopes (here ++ [name]) true =
        guide.ignores scopes (here ++ [name]) true := rfl
    have hprunes : guide.unpruned.prunes (Text.join ['/'] (here ++ [name])) = false := rfl
    rw [visitEntry, visitEntry, hignores, hprunes, Bool.or_false]
    by_cases hignored : guide.ignores scopes (here ++ [name]) true
    · rw [hignored, Bool.true_or, if_pos rfl, if_pos rfl]
    · rw [Bool.eq_false_iff.mpr hignored, Bool.false_or]
      by_cases hpruned : guide.prunes (Text.join ['/'] (here ++ [name]))
      · -- Nothing is chosen of what the other walk visits in the directory.
        rw [if_pos hpruned, if_neg Bool.false_ne_true, List.filter_nil, eq_comm,
          List.filter_cons_of_neg (by rw [hnone.folder]; exact Bool.false_ne_true),
          List.filter_eq_nil_iff]
        intro v hv
        obtain ⟨rest, hrest, hnames⟩ := exists_names_of_mem_visitAll _ _ entries hv
        rw [hnone.below v _ rest hnames (List.concat_ne_nil name here) hrest hpruned]
        exact Bool.false_ne_true
      · rw [if_neg hpruned, if_neg Bool.false_ne_true, List.filter_cons, List.filter_cons,
          filter_visitAll hnone _ (here ++ [name]) entries]
        rfl

/-- Entering the pruned directories as well makes no difference to what is chosen. -/
theorem filter_visitAll {chosen : Visit → Bool} (hnone : guide.PrunesNone chosen)
    (scopes : List Scope) (here : List Text) :
    (entries : Folder) → (visitAll guide scopes here entries).filter chosen =
      (visitAll guide.unpruned scopes here entries).filter chosen
  | [] => rfl
  | (name, e) :: rest => by
    rw [visitAll, visitAll, List.filter_append, List.filter_append,
      filter_visitEntry hnone scopes here name e, filter_visitAll hnone scopes here rest]

end

theorem filter_walk {chosen : Visit → Bool} (hnone : guide.PrunesNone chosen) (entries : Folder) :
    (walk guide entries).filter chosen = (walk guide.unpruned entries).filter chosen := by
  have hinput : guide.unpruned.isInput = guide.isInput := rfl
  rw [walk, walk, hinput]
  split
  · rfl
  · exact filter_visitAll hnone _ [] entries

end

/-! ## Searches -/

/-- A set that accepts what lies below the directories that it accepts selects nothing below them. -/
theorem prunesNone_selectsFile {tree : Folder} {root : Text} {place : Place} {useGitignore : Bool}
    {includes ignores : PatternSet}
    (h : ∀ dir below, ignores.acceptsDir dir = true →
      ignores.acceptsFile (dir ++ '/' :: below) = true) :
    (guideFor tree root place useGitignore ignores).PrunesNone (selectsFile includes ignores) where
  folder _ _ := rfl
  below v dir rest hnames hdir hrest hprunes := by
    have hpath : v.path = Text.join ['/'] dir ++ '/' :: Text.join ['/'] rest := by
      rw [Visit.path, hnames, Text.join_append hdir hrest, List.append_assoc, List.singleton_append]
    have haccepts : ignores.acceptsFile v.path = true := by
      rw [hpath]
      exact h _ _ hprunes
    rw [selectsFile]
    split
    · rw [haccepts, Bool.not_true, Bool.and_false]
    · rfl

/-- With patterns for all that lies in a directory, pruning leaves out no more than the patterns do.
The set of them accepts what lies below each directory that it accepts, and a search with them finds
the files that it would find by entering every directory that the ignore files keep. -/
theorem files_run_eq_unpruned (sorter : Path.Sorter) {raws : List Text}
    (hraws : ∀ raw ∈ raws, isPattern raw ∧ NamesDirectory raw) :
    ∃ ignores, PatternSet.ofTexts raws = .ok ignores ∧
      (∀ dir below, ignores.acceptsDir dir → ignores.acceptsFile (dir ++ '/' :: below)) ∧
      ∀ {tree : Folder} {root : Text} {o : Overrides} {s : Settings} {place : Place}
          {entries : Folder},
        o.merge = .ok s → rootFolder tree root = .ok (place, entries) →
        ignorePatterns tree place s.ignore = raws →
        ∃ includes, PatternSet.ofTexts (includePatterns s.includes) = .ok includes ∧
          (entries.isProper → DirsSettle tree root s → (runBy sorter tree root s).isSome) ∧
          ∀ outcome ∈ runBy sorter tree root s, ∃ found, outcome = .ok found ∧
            sorter.sort? (((walk (rulesBelow tree root place s) entries).filter
              (selectsFile includes ignores)).map Visit.path) = some found.files := by
  obtain ⟨ignores, hignores, hset⟩ := PatternSet.exists_ofTexts fun raw hraw => (hraws raw hraw).1
  have hbelow : ∀ dir below, ignores.acceptsDir dir = true →
      ignores.acceptsFile (dir ++ '/' :: below) = true := fun dir below h =>
    hset.acceptsFile_below (fun raw hraw => (hraws raw hraw).2) h below
  refine ⟨ignores, hignores, hbelow, ?_⟩
  intro tree root o s place entries hs hroot hraws
  subst hraws
  obtain ⟨includes, hincludes, -⟩ := PatternSet.exists_ofTexts (isPattern_includePatterns hs)
  have hnone : (guideFor tree root place s.ignore.useGitignore ignores).PrunesNone
      (selectsFile includes ignores) := prunesNone_selectsFile hbelow
  have hunpruned : (guideFor tree root place s.ignore.useGitignore ignores).unpruned =
      rulesBelow tree root place s := rfl
  refine ⟨includes, hincludes, isSome_runBy sorter hroot, fun outcome houtcome => ?_⟩
  have hgather := gather_eq_ok.mpr
    ⟨place, entries, includes, ignores, hroot, hincludes, hignores, rfl⟩
  obtain ⟨found, rfl, hfiles, -⟩ := exists_of_mem_runBy hgather houtcome
  rw [filter_walk hnone, hunpruned] at hfiles
  exact ⟨found, rfl, hfiles⟩

/-- Overrides that leave out what lies in the directories `x`, and in those of the root whose names
start with a `t`. -/
def withoutDirectories : Overrides :=
  { ignore := some { useDefaultPatterns := some false
                     customPatterns := some ["t*/".toList, "**/x/**".toList] } }

/-- A directory with a file below `t` and one in it, one with a directory `x`, and one with a name
that only begins like it. -/
def nestedEntries : Folder :=
  [(['t', '1'], .folder [(['u'], .folder [(['a'], .file ⟨#[]⟩)])]),
    (['k'], .folder [(['x'], .folder [(['b'], .file ⟨#[]⟩)]), (['x', 'y'], .file ⟨#[]⟩)])]

theorem files_run_withoutDirectories :
    let s := withoutDirectories.settings
    (∀ raw ∈ ["t*/".toList, "**/x/**".toList], isPattern raw ∧ NamesDirectory raw) ∧
      withoutDirectories.merge = .ok s ∧
      rootFolder nestedEntries ['.'] = .ok ([], nestedEntries) ∧
      ignorePatterns nestedEntries [] s.ignore = ["t*/".toList, "**/x/**".toList] ∧
      run nestedEntries ['.'] s = .ok ⟨["k/xy".toList], []⟩ ∧
      ∃ includes ignores, PatternSet.ofTexts (includePatterns s.includes) = .ok includes ∧
        PatternSet.ofTexts ["t*/".toList, "**/x/**".toList] = .ok ignores ∧
        ignores.acceptsDir ['t', '1'] ∧ ignores.acceptsFile "t1/u/a".toList ∧
        ["k/xy".toList] = Path.sort (((walk (rulesBelow nestedEntries ['.'] [] s)
          nestedEntries).filter (selectsFile includes ignores)).map Visit.path) := by
  intro s
  have hraws : ∀ raw ∈ ["t*/".toList, "**/x/**".toList], isPattern raw ∧ NamesDirectory raw := by
    simp only [List.forall_mem_cons, List.not_mem_nil, false_imp_iff, implies_true, and_true]
    exact ⟨⟨by decide, ['t', '*'], .inr rfl, by decide⟩,
      by decide, "**/x".toList, .inl rfl, by decide⟩
  have hmerge : withoutDirectories.merge = .ok s := rfl
  have hroot : rootFolder nestedEntries ['.'] = .ok ([], nestedEntries) := rfl
  have hignore : ignorePatterns nestedEntries [] s.ignore = ["t*/".toList, "**/x/**".toList] := rfl
  have hrun : run nestedEntries ['.'] s = .ok ⟨["k/xy".toList], []⟩ := by decide +kernel
  obtain ⟨ignores, hignores, hbelow, hsearch⟩ := files_run_eq_unpruned .insertion hraws
  have hdir : ignores.acceptsDir ['t', '1'] := by
    rw [(PatternSet.acceptsAsTexts_of_ofTexts (fun raw hraw => (hraws raw hraw).1) hignores).dir]
    decide +kernel
  obtain ⟨includes, hincludes, -, houtcomes⟩ := hsearch hmerge hroot hignore
  obtain ⟨found, hfound, hfiles⟩ := houtcomes _ (runBy_insertion _ _ _)
  obtain rfl := Except.ok.inj (hrun.symm.trans hfound)
  exact ⟨hraws, hmerge, hroot, hignore, hrun, includes, ignores, hincludes, hignores, hdir,
    hbelow ['t', '1'] ['u', '/', 'a'] hdir, (Option.some.inj hfiles).symm⟩

/-- Overrides with a pattern text for all that lies in a directory whose own text ends in a recursive
wildcard and a slash. -/
def doubleSlash : Overrides :=
  { ignore := some { useDefaultPatterns := some false
                     customPatterns := some [['*', '*', '/', '/']] } }

/-- A file, and one in a directory. -/
def shelf : Folder := [(['d'], .folder [(['x'], .file ⟨#[]⟩)]), (['y'], .file ⟨#[]⟩)]

/-- The pattern `**//` accepts the directory `d` and not the file in it, which is found only by
entering the directory. -/
theorem run_doubleSlash :
    let s := doubleSlash.settings
    doubleSlash.merge = .ok s ∧
      rootFolder shelf ['.'] = .ok ([], shelf) ∧
      ignorePatterns shelf [] s.ignore = [['*', '*', '/', '/']] ∧
      isPattern ['*', '*', '/', '/'] ∧
      NamesAllIn ['*', '*', '/'] ['*', '*', '/', '/'] ∧
      (∃ includes ignores, PatternSet.ofTexts (includePatterns s.includes) = .ok includes ∧
        PatternSet.ofTexts (ignorePatterns shelf [] s.ignore) = .ok ignores ∧
        ignores.acceptsDir ['d'] ∧ ignores.acceptsFile ['d', '/', 'x'] = false ∧
        Path.sort (((walk (rulesBelow shelf ['.'] [] s) shelf).filter
          (selectsFile includes ignores)).map Visit.path) = [['d', '/', 'x'], ['y']]) ∧
      run shelf ['.'] s = .ok ⟨[['y']], []⟩ :=
  ⟨rfl, rfl, rfl, rfl, .inr rfl, ⟨_, _, rfl, rfl, rfl, rfl, rfl⟩, rfl⟩

end SourceBundle.Search
