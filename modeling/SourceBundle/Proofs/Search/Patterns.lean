import SourceBundle.Proofs.Settings.CheckedFields
import SourceBundle.Search.Basic

/-!
# The patterns of a search

Settings that come from accepted overrides have pattern texts only: include patterns are patterns
once their brackets are literal, custom patterns as they stand.  The built-in patterns, the pattern
for all files and the name `.git` are patterns too, so the sets of a search can be made whatever the
root holds.
-/

namespace SourceBundle

open Glob

namespace Overrides

/-- Accepted overrides give include patterns that are patterns with their brackets literal. -/
theorem isPattern_includes {o : Overrides} {s : Settings} (h : o.merge = .ok s) :
    ∀ raw ∈ s.includes, isPattern (escapeBrackets raw) := by
  obtain ⟨hissues, rfl⟩ := issues_eq_nil h
  intro raw hraw
  obtain ⟨index, hindex⟩ := List.mem_iff_getElem?.mp hraw
  exact accepts_of_issues hissues (.includePattern index) hindex

/-- Accepted overrides give custom patterns that are patterns. -/
theorem isPattern_customPatterns {o : Overrides} {s : Settings} (h : o.merge = .ok s) :
    ∀ raw ∈ s.ignore.customPatterns, isPattern raw := by
  obtain ⟨hissues, rfl⟩ := issues_eq_nil h
  intro raw hraw
  rw [customPatterns_settings] at hraw
  obtain ⟨index, hindex⟩ := List.mem_iff_getElem?.mp hraw
  exact accepts_of_issues hissues (.customPattern index) hindex

end Overrides

namespace Search

theorem firstSeen_subset (seen raws : List Text) : firstSeen seen raws ⊆ raws := by
  induction raws generalizing seen with
  | nil => exact List.Subset.refl _
  | cons raw raws ih =>
    rw [firstSeen]
    split
    · exact List.Subset.trans (ih seen) (List.subset_cons_self raw raws)
    · exact List.cons_subset_cons raw (ih _)

theorem swapGitPattern_subset (raws : List Text) : swapGitPattern raws ⊆ gitName :: raws := by
  rw [swapGitPattern]
  split
  · intro raw hraw
    rcases List.mem_append.mp hraw with hraw | hraw
    · exact List.mem_cons_of_mem _ (List.mem_of_mem_erase hraw)
    · exact List.mem_cons.mpr (.inl (List.mem_singleton.mp hraw))
  · exact List.subset_cons_self gitName raws

theorem isPattern_builtIn : ∀ raw ∈ DefaultPatterns.all.map String.toList, isPattern raw := by
  decide +kernel

theorem isPattern_includePatterns {o : Overrides} {s : Settings} (h : o.merge = .ok s) :
    ∀ raw ∈ includePatterns s.includes, isPattern raw := by
  rw [includePatterns]
  split
  · exact List.forall_mem_singleton.mpr (by decide)
  · exact List.forall_mem_map.mpr (Overrides.isPattern_includes h)

theorem isPattern_ignorePatterns {o : Overrides} {s : Settings} (h : o.merge = .ok s)
    (tree : Folder) (place : Place) :
    ∀ raw ∈ ignorePatterns tree place s.ignore, isPattern raw := by
  have hgit : isPattern gitName := by decide
  have hseen : ∀ raw ∈ firstSeen [] ((if s.ignore.useDefaultPatterns then
      DefaultPatterns.all.map String.toList else []) ++ s.ignore.customPatterns),
      isPattern raw := by
    intro raw hraw
    rcases List.mem_append.mp (firstSeen_subset _ _ hraw) with hraw | hraw
    · split at hraw
      · exact isPattern_builtIn raw hraw
      · exact absurd hraw List.not_mem_nil
    · exact Overrides.isPattern_customPatterns h raw hraw
  intro raw hraw
  simp only [ignorePatterns] at hraw
  split at hraw
  · rcases List.mem_cons.mp (swapGitPattern_subset _ hraw) with rfl | hraw
    · exact hgit
    · exact hseen raw hraw
  · exact hseen raw hraw

/-! ## Making the sets -/

theorem rootFolder_ne_invalidPattern (tree : Folder) (root : Text) (e : Glob.Invalid) :
    rootFolder tree root ≠ .error (.invalidPattern e) := by
  unfold rootFolder
  split <;> simp

/-- When the sets of a search can be made, the search fails only with its root. -/
theorem run_eq_error {tree : Folder} {root : Text} {s : Settings}
    (hincludes : ∃ set, PatternSet.ofTexts (includePatterns s.includes) = .ok set)
    (hignores : ∀ place, ∃ set, PatternSet.ofTexts (ignorePatterns tree place s.ignore) = .ok set)
    {fault : Fault} :
    run tree root s = .error fault ↔ rootFolder tree root = .error fault := by
  obtain ⟨includes, hincludes⟩ := hincludes
  rw [run, map_eq_error]
  unfold gather
  constructor
  · intro h
    rcases bind_eq_error.1 h with hroot | ⟨⟨place, entries⟩, -, h⟩
    · exact hroot
    · obtain ⟨ignores, hignores⟩ := hignores place
      rcases bind_eq_error.1 h with h | ⟨set, -, h⟩
      · rw [hincludes] at h
        cases h
      · rcases bind_eq_error.1 h with h | ⟨set', -, h⟩
        · rw [hignores] at h
          cases h
        · cases h
  · exact fun hroot => bind_eq_error.2 (.inl hroot)

/-- The pattern texts of accepted overrides make sets, whatever the root holds.  So no search with
these settings fails with an invalid pattern. -/
theorem patternSets_of_merge {o : Overrides} {s : Settings} (h : o.merge = .ok s) (tree : Folder) :
    (∃ set, PatternSet.ofTexts (includePatterns s.includes) = .ok set) ∧
      (∀ place, ∃ set, PatternSet.ofTexts (ignorePatterns tree place s.ignore) = .ok set) ∧
      ∀ root,
        (∀ fault, run tree root s = .error fault ↔ rootFolder tree root = .error fault) ∧
        ∀ e, run tree root s ≠ .error (.invalidPattern e) := by
  have hincludes : ∃ set, PatternSet.ofTexts (includePatterns s.includes) = .ok set := by
    obtain ⟨set, hset, -⟩ := PatternSet.exists_ofTexts (isPattern_includePatterns h)
    exact ⟨set, hset⟩
  have hignores : ∀ place, ∃ set,
      PatternSet.ofTexts (ignorePatterns tree place s.ignore) = .ok set := by
    intro place
    obtain ⟨set, hset, -⟩ := PatternSet.exists_ofTexts (isPattern_ignorePatterns h tree place)
    exact ⟨set, hset⟩
  refine ⟨hincludes, hignores, fun root => ⟨fun fault => run_eq_error hincludes hignores, ?_⟩⟩
  intro e hrun
  rw [run_eq_error hincludes hignores] at hrun
  exact rootFolder_ne_invalidPattern tree root e hrun

/-- Overrides with brackets before slashes, in include patterns as names and in ignore patterns as
classes. -/
def bracketOverrides : Overrides :=
  { includes := some ["app/[slug]/**".toList, "docs/[/".toList]
    ignore := some { customPatterns := some ["[]]/**".toList, "[!/]/".toList, "**/".toList] } }

/-- The work tree of a repository that lies elsewhere, with a directory `a`. -/
def linkedWorktree : Folder :=
  [(gitName, .file ⟨#[103, 105, 116, 100, 105, 114, 58, 32, 120]⟩), (['a'], .folder [])]

theorem patternSets_of_bracketOverrides :
    bracketOverrides.merge = .ok bracketOverrides.settings ∧
      gitName ∈ ignorePatterns linkedWorktree [] bracketOverrides.settings.ignore ∧
      gitPattern ∉ ignorePatterns linkedWorktree [] bracketOverrides.settings.ignore ∧
      (∃ set, PatternSet.ofTexts
        (ignorePatterns linkedWorktree [] bracketOverrides.settings.ignore) = .ok set) ∧
      rootFolder linkedWorktree ['.'] = .ok ([], linkedWorktree) ∧
      ∀ e, run linkedWorktree ['.'] bracketOverrides.settings ≠ .error (.invalidPattern e) := by
  have hmerge : bracketOverrides.merge = .ok bracketOverrides.settings := by decide
  have hswapped : gitName ∈ ignorePatterns linkedWorktree [] bracketOverrides.settings.ignore ∧
      gitPattern ∉ ignorePatterns linkedWorktree [] bracketOverrides.settings.ignore := by
    decide +kernel
  obtain ⟨-, hignores, hrun⟩ := patternSets_of_merge hmerge linkedWorktree
  exact ⟨hmerge, hswapped.1, hswapped.2, hignores [], rfl, (hrun ['.']).2⟩

end Search

end SourceBundle
