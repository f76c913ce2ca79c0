import SourceBundle.Proofs.Glob.Directories
import SourceBundle.Proofs.Search.Files
import SourceBundle.Proofs.Search.Narrowing

/-!
# Directories that no search looks into

With the built-in patterns no search finds what lies in the root's own `.git`.  The pattern for it
prunes that directory, and so does the pattern that it gives way to where `.git` is a file
(`git_of_builtIn`).  Both stand for a place directly below the root, and what lies in the `.git` of
a repository further down is found like any other file (`file_inside_git_nestedRepository`).

A directory is left out wherever it is by the pattern for its name at any depth
(`not_mem_dropLast_of_mem_files`), which is how the built-in patterns deal with the packages of
dependencies.  There is no such pattern for `.git` among them; custom patterns may bring it.
-/

namespace SourceBundle.Search

open Glob

section

variable {tree entries : Folder} {root : Text} {place : Place} {s : Settings} {gathered : Found}

/-- With the pattern for a name at any depth, no file is found in a directory of that name. -/
theorem not_mem_dropLast_of_mem_files {o : Overrides} (hs : o.merge = .ok s)
    (hroot : rootFolder tree root = .ok (place, entries)) (hproper : entries.isProper)
    (hgather : gather tree root s = .ok gathered) {name : Text} (hname : IsVerbatim name)
    (hslash : '/' ∉ name) (hpattern : anywhereBelow name ∈ ignorePatterns tree place s.ignore) :
    ∀ path ∈ gathered.files, name ∉ (Path.components path).dropLast := by
  intro path hpath
  obtain ⟨names, rfl, hselects⟩ := selects_of_mem_files hs hroot hproper hgather hpath
  rw [← acceptsFile_anywhereBelow hname hslash, hselects.notIgnored _ hpattern]
  exact Bool.false_ne_true

/-! ## The root's repository -/

theorem mem_ignorePatterns_of_ne {t : Text} (hne : t ≠ gitPattern)
    (ht : t ∈ namedPatterns s.ignore) : t ∈ ignorePatterns tree place s.ignore := by
  have hseen : t ∈ firstSeen [] (namedPatterns s.ignore) := mem_firstSeen.2 ⟨ht, List.not_mem_nil⟩
  rw [ignorePatterns_eq]
  split
  · exact mem_swapGitPattern_of_ne hne hseen
  · exact hseen

/-- The built-in patterns have one that prunes the root's `.git`, be it the one for the directory or
the one that it gives way to. -/
theorem git_of_builtIn (tree : Folder) (place : Place) {s : Settings}
    (hbuiltIn : s.ignore.useDefaultPatterns = true) :
    ∃ raw ∈ ignorePatterns tree place s.ignore, acceptsDir raw gitName = true := by
  have hnamed : gitPattern ∈ firstSeen [] (namedPatterns s.ignore) := by
    refine mem_firstSeen.2 ⟨?_, List.not_mem_nil⟩
    rw [namedPatterns, if_pos hbuiltIn]
    exact List.mem_append_left _ (by decide)
  rw [ignorePatterns_eq]
  split
  · refine ⟨gitName, ?_, by decide⟩
    rw [swapGitPattern, if_pos (List.contains_iff_mem.mpr hnamed)]
    exact List.mem_append_right _ (List.mem_singleton.mpr rfl)
  · exact ⟨gitPattern, hnamed, by decide⟩

/-- With the built-in patterns a search finds no file in the root's own `.git`.  It finds none in
any `.git` if there is no such directory further down, or if the custom patterns have the one for the
name at any depth. -/
theorem files_outside_git (sorter : Path.Sorter) {o : Overrides} (hs : o.merge = .ok s)
    (hbuiltIn : s.ignore.useDefaultPatterns = true)
    (hroot : rootFolder tree root = .ok (place, entries)) (hproper : entries.isProper) :
    (DirsSettle tree root s → (runBy sorter tree root s).isSome) ∧
      ∀ outcome ∈ runBy sorter tree root s, ∃ found, outcome = .ok found ∧ ∀ path ∈ found.files,
        (Path.components path).dropLast.head? ≠ some gitName ∧
          ((∀ dir below, entries.at? (dir ++ [gitName]) = some (.folder below) → dir = []) ∨
              anywhereBelow gitName ∈ s.ignore.customPatterns →
            gitName ∉ (Path.components path).dropLast) := by
  refine ⟨isSome_runBy sorter hroot hproper, fun outcome houtcome => ?_⟩
  obtain ⟨gathered, hgather⟩ := exists_gather hs hroot
  obtain ⟨found, rfl, hfiles, -⟩ := exists_of_mem_runBy hgather houtcome
  refine ⟨found, rfl, fun path hpath => ?_⟩
  rw [Path.Sorter.mem_of_sort? hfiles] at hpath
  obtain ⟨names, rfl, hselects⟩ := selects_of_mem_files hs hroot hproper hgather hpath
  have hnames := hselects.components_join hproper
  rw [hnames]
  have htop : names.dropLast.head? ≠ some gitName := by
    intro hhead
    obtain ⟨below, hbelow, rfl⟩ : ∃ below, below ≠ [] ∧ names = gitName :: below := by
      cases names with
      | nil => cases hhead
      | cons name below =>
        cases below with
        | nil => cases hhead
        | cons next rest =>
          obtain rfl : name = gitName := Option.some.inj hhead
          exact ⟨next :: rest, List.cons_ne_nil next rest, rfl⟩
    obtain ⟨raw, hraw, hprunes⟩ := git_of_builtIn tree place hbuiltIn
    have hkept := hselects.notPruned [gitName] (List.cons_ne_nil _ _)
      ((List.prefix_cons_inj gitName).mpr List.nil_prefix) (by simpa using hbelow.symm) raw hraw
    exact Bool.false_ne_true (hkept.symm.trans hprunes)
  refine ⟨htop, ?_⟩
  rintro (honly | hcustom)
  · intro hgit
    obtain ⟨above, below, hbelow, rfl⟩ := exists_of_mem_dropLast hgit
    obtain ⟨content, hat⟩ := hselects.isFile
    have hpre : above ++ [gitName] <+: above ++ gitName :: below := ⟨below, by simp⟩
    obtain ⟨git, hfolder⟩ := Folder.exists_at?_of_isPrefix hat hpre (by simpa using hbelow.symm)
    obtain rfl : above = [] := honly above git hfolder
    apply htop
    rw [List.nil_append, List.dropLast_cons_of_ne_nil hbelow, List.head?_cons]
  · have hpattern : anywhereBelow gitName ∈ ignorePatterns tree place s.ignore :=
      mem_ignorePatterns_of_ne (by decide) (List.mem_append_right _ hcustom)
    have houtside := not_mem_dropLast_of_mem_files hs hroot hproper hgather (by decide) (by decide)
      hpattern _ hpath
    rwa [hnames] at houtside

end

/-- A repository with a file `a` and, in the directory `v`, the checkout of another repository. -/
def nestedRepository : Folder :=
  [(gitName, .folder [(['c'], .file ⟨#[]⟩)]), (['a'], .file ⟨#[]⟩),
    (['v'], .folder [(gitName, .folder [(['c'], .file ⟨#[]⟩)]), (['b'], .file ⟨#[]⟩)])]

theorem run_nestedRepository :
    run nestedRepository ['.'] ({} : Overrides).settings =
      .ok ⟨[['v', '/'] ++ gitName ++ ['/', 'c'], ['v', '/', 'b'], ['a']], []⟩ := by
  decide +kernel

/-- Overrides that leave out every `.git`. -/
def withoutGit : Overrides :=
  { ignore := some { customPatterns := some [anywhereBelow gitName] } }

theorem files_outside_git_nestedRepository :
    ({} : Overrides).merge = .ok ({} : Overrides).settings ∧
      withoutGit.merge = .ok withoutGit.settings ∧
      rootFolder nestedRepository ['.'] = .ok ([], nestedRepository) ∧
      nestedRepository.isProper ∧
      (∀ path ∈ [['v', '/'] ++ gitName ++ ['/', 'c'], ['v', '/', 'b'], ['a']],
        (Path.components path).dropLast.head? ≠ some gitName) ∧
      ∃ found, run nestedRepository ['.'] withoutGit.settings = .ok found ∧
        ∀ path ∈ found.files, gitName ∉ (Path.components path).dropLast := by
  have hroot : rootFolder nestedRepository ['.'] = .ok ([], nestedRepository) := rfl
  have hproper : nestedRepository.isProper := by decide
  have hmerge : ({} : Overrides).merge = .ok ({} : Overrides).settings := rfl
  have hmerge' : withoutGit.merge = .ok withoutGit.settings := rfl
  obtain ⟨found, hfound, hfiles⟩ :=
    (files_outside_git .insertion hmerge rfl hroot hproper).2 _ (runBy_insertion _ _ _)
  obtain rfl := Except.ok.inj (run_nestedRepository.symm.trans hfound)
  obtain ⟨found', hfound', hfiles'⟩ :=
    (files_outside_git .insertion hmerge' rfl hroot hproper).2 _ (runBy_insertion _ _ _)
  have hown := fun path hpath => (hfiles path hpath).1
  have hall := fun path hpath => (hfiles' path hpath).2 (.inr List.mem_cons_self)
  exact ⟨hmerge, hmerge', hroot, hproper, hown, found', hfound', hall⟩

/-- With the built-in patterns alone, a file in the `.git` of the other repository is found. -/
theorem file_inside_git_nestedRepository :
    ({} : Overrides).merge = .ok ({} : Overrides).settings ∧
      ({} : Overrides).settings.ignore.useDefaultPatterns = true ∧
      ∃ found, run nestedRepository ['.'] ({} : Overrides).settings = .ok found ∧
        ∃ path ∈ found.files, gitName ∈ (Path.components path).dropLast :=
  ⟨rfl, rfl, _, run_nestedRepository, _, List.mem_cons_self, by decide⟩

end SourceBundle.Search
