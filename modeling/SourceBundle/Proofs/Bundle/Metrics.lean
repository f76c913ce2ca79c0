import Mathlib.Data.List.Nodup
import SourceBundle.Proofs.Bundle.Counts
import SourceBundle.Proofs.Bundle.Groups

/-!
# Metrics and the files they measure

Metrics keep what they have counted by path, and a path is taken below its root.  So they account
for every file that they measure just when no two files have the same path (`accounts_measure_iff`).
Then their tables are the lists of what was counted, in another order.

A bundle repeats no path that was found once, and below one root every path is found once.  Two
roots may have a path in common.  The document then has both files, and the metrics know only of the
later one: of the two files in `twinTree` they count both and describe one.
-/

namespace SourceBundle

/-! ## Metrics of any files -/

namespace Metrics

/-- Each file's path with the number of its characters. -/
def characterEntries (files : List TextFile) : List (Text × Nat) :=
  files.map fun f => (f.path, f.content.length)

/-- Each file's path with the number of its tokens. -/
def tokenEntries (counter : TokenCounter) (files : List TextFile) : List (Text × Nat) :=
  files.zipIdx.map fun p => (p.1.path, counter.file p.2 p.1.content)

/-- The metrics account for every file: each has an entry of its own in the tables, and each can be
among the top files. -/
structure Accounts (m : Metrics) (counter : TokenCounter) (files : List TextFile) : Prop where
  totalFiles : m.totalFiles = files.length
  charactersEach : m.charactersByPath.length = m.totalFiles
  tokensEach : m.tokensByPath.length = m.totalFiles
  characters : characterEntries files ⊆ m.charactersByPath
  tokens : tokenEntries counter files ⊆ m.tokensByPath
  charactersTotal : Counts.total m.charactersByPath = (files.flatMap TextFile.content).length
  candidates : tokenEntries counter files ⊆ m.topFiles m.totalFiles

theorem map_fst_characterEntries (files : List TextFile) :
    (characterEntries files).map Prod.fst = files.map TextFile.path := List.map_map

theorem map_fst_tokenEntries (counter : TokenCounter) (files : List TextFile) :
    (tokenEntries counter files).map Prod.fst = files.map TextFile.path := by
  have hfiles : files.zipIdx.map (TextFile.path ∘ Prod.fst) = files.map TextFile.path := by
    rw [← List.map_map, List.zipIdx_map_fst]
  rw [tokenEntries, List.map_map]
  exact hfiles

theorem total_characterEntries (files : List TextFile) :
    Counts.total (characterEntries files) = (files.flatMap TextFile.content).length := by
  induction files with
  | nil => rfl
  | cons f files ih =>
    rw [characterEntries] at ih ⊢
    rw [List.map_cons, Counts.total, ih, List.flatMap_cons, List.length_append]

theorem fileCounts_eq_map (counter : TokenCounter) (index : Nat) (files : List TextFile) :
    fileCounts counter index files = (files.zipIdx index).map fun p =>
      ⟨p.1.path, p.1.content.length, counter.file p.2 p.1.content⟩ := by
  induction files generalizing index with
  | nil => rfl
  | cons f files ih => rw [fileCounts, ih, List.zipIdx_cons, List.map_cons]

variable (counter : TokenCounter) (files : List TextFile) (document : Text)

theorem charactersByPath_measure :
    (measure counter files document).charactersByPath = Counts.ofList (characterEntries files) := by
  have hentries : (fileCounts counter 0 files).map (fun c => (c.path, c.characters)) =
      characterEntries files := by
    rw [fileCounts_eq_map, List.map_map]
    conv_rhs => rw [characterEntries, ← List.zipIdx_map_fst 0 files, List.map_map]
    rfl
  exact congrArg Counts.ofList hentries

theorem tokensByPath_measure :
    (measure counter files document).tokensByPath =
      Counts.ofList (tokenEntries counter files) := by
  have hentries : (fileCounts counter 0 files).map (fun c => (c.path, c.tokens)) =
      tokenEntries counter files := by
    rw [fileCounts_eq_map, List.map_map]
    rfl
  exact congrArg Counts.ofList hentries

/-- Metrics account for every file just when no two files have the same path. -/
theorem accounts_measure_iff :
    (measure counter files document).Accounts counter files ↔
      (files.map TextFile.path).Nodup := by
  have hlength : (characterEntries files).length = files.length := List.length_map _
  have hlength' : (tokenEntries counter files).length = files.length := by
    rw [tokenEntries, List.length_map, List.length_zipIdx]
  constructor
  · intro h
    have heach := h.charactersEach.trans h.totalFiles
    rwa [charactersByPath_measure, ← hlength, Counts.length_ofList_iff,
      map_fst_characterEntries] at heach
  · intro h
    have hcharacters : (measure counter files document).charactersByPath.Perm
        (characterEntries files) := by
      rw [← map_fst_characterEntries] at h
      rw [charactersByPath_measure]
      exact Counts.ofList_perm h
    have htokens : (measure counter files document).tokensByPath.Perm
        (tokenEntries counter files) := by
      rw [← map_fst_tokenEntries counter] at h
      rw [tokensByPath_measure]
      exact Counts.ofList_perm h
    have htokensEach : (measure counter files document).tokensByPath.length = files.length :=
      htokens.length_eq.trans hlength'
    have htop := Counts.top_perm (Nat.le_of_eq htokensEach)
    exact
      { totalFiles := rfl
        charactersEach := hcharacters.length_eq.trans hlength
        tokensEach := htokensEach
        characters := hcharacters.symm.subset
        tokens := htokens.symm.subset
        charactersTotal := (Counts.total_perm hcharacters).trans (total_characterEntries files)
        candidates := (htop.trans htokens).symm.subset }

end Metrics

/-! ## The paths of a bundle -/

namespace Bundle

open Search (Found)

/-- What was found once is in one group, and there once. -/
theorem nodup_files_regroup {roots : List Text} {found : List Found}
    (hlength : roots.length = found.length) (h : (found.flatMap Found.files).Nodup) :
    ((regroup roots found).flatMap Group.files).Nodup := by
  have hsort := Path.nodup_sort_of_nodup h
  obtain ⟨-, hdisjoint⟩ := List.nodup_flatMap.mp h
  have hzip : (roots.zip found).map Prod.snd = found := List.map_snd_zip (Nat.le_of_eq hlength.symm)
  rw [← hzip, List.pairwise_map] at hdisjoint
  rw [regroup, share, List.flatMap_map]
  refine List.nodup_flatMap.mpr ⟨fun p _ => hsort.filter _, ?_⟩
  refine hdisjoint.imp fun {p q} hpq path hp hq => ?_
  rw [List.mem_filter, List.contains_iff_mem] at hp hq
  exact hpq hp.2 hq.2

/-- Files are read and processed in the order of their groups, some of them being left out. -/
theorem paths_textFiles_sublist (analysis : Analysis) (tree : Folder) (roots : List Text)
    (s : Settings) (found : List Found) :
    ((textFiles analysis tree roots s found).map TextFile.path).Sublist
      ((regroup roots found).flatMap Group.files) := by
  have hpaths : (textFiles analysis tree roots s found).map TextFile.path =
      (regroup roots found).flatMap fun g => (Collect.readAll (analysis.guess g.root)
        Collect.defaultLimit tree g.root g.files).map SourceFile.path := by
    rw [textFiles, processAll, readGroups, List.map_map, List.map_flatMap]
    rfl
  rw [hpaths]
  induction regroup roots found with
  | nil => exact .slnil
  | cons g groups ih =>
    exact (map_path_readAll_sublist _ _ _ _ _).append ih

/-- The metrics of a bundle account for all of its files just when no two of them have the same
path.  They do when no path is found twice, and so with one root. -/
theorem accounts_of_pack {analysis : Analysis} {tree : Folder} {roots : List Text} {s : Settings}
    {packed : Packed} (h : pack analysis tree roots s = .ok packed) :
    ∃ found, searchAll tree roots s = .ok found ∧
      (packed.metrics.Accounts (analysis.counter s.tokenCount.encoding)
          (textFiles analysis tree roots s found) ↔
        ((textFiles analysis tree roots s found).map TextFile.path).Nodup) ∧
      ((found.flatMap Found.files).Nodup →
        packed.metrics.Accounts (analysis.counter s.tokenCount.encoding)
          (textFiles analysis tree roots s found)) ∧
      (tree.isProper → roots.length = 1 → (found.flatMap Found.files).Nodup) := by
  cases hfound : searchAll tree roots s with
  | error fault =>
    rw [pack, hfound] at h
    cases h
  | ok found =>
    rw [pack, hfound] at h
    obtain rfl : assemble analysis tree roots s found = packed := Except.ok.inj h
    have hruns := forall₂_of_searchAll hfound
    have hiff := Metrics.accounts_measure_iff (analysis.counter s.tokenCount.encoding)
      (textFiles analysis tree roots s found)
      (assemble analysis tree roots s found).document
    refine ⟨found, rfl, hiff, ?_, ?_⟩
    · intro hnodup
      have hpaths := nodup_files_regroup hruns.length_eq hnodup
      exact hiff.mpr ((paths_textFiles_sublist analysis tree roots s found).nodup hpaths)
    · intro hproper hone
      cases hruns with
      | nil => exact List.nodup_nil
      | cons hrun rest =>
        obtain rfl := List.length_eq_zero_iff.mp (Nat.succ.inj hone)
        cases rest
        rw [List.flatMap_singleton]
        exact Search.nodup_files_of_run hproper hrun

theorem pack_of_searchAll (analysis : Analysis) {tree : Folder} {roots : List Text} {s : Settings}
    {found : List Found} (h : searchAll tree roots s = .ok found) :
    pack analysis tree roots s = .ok (assemble analysis tree roots s found) := by
  rw [pack, h]
  rfl

/-- Counts characters where tokens are asked for. -/
def countingCharacters : Analysis :=
  { Analysis.none with counter := fun _ => ⟨fun _ content => content.length, List.length⟩ }

/-- Two roots with no path in common. -/
def apartTree : Folder :=
  [(['p'], .folder [(['a'], .file ⟨#[120]⟩), (['d'], .folder [(['x'], .file ⟨#[121]⟩)])]),
    (['q'], .folder [(['B'], .file ⟨#[121, 122]⟩)])]

theorem accounts_apartTree :
    ∃ packed found,
      pack countingCharacters apartTree [['p'], ['q']] Search.withoutT.settings = .ok packed ∧
      searchAll apartTree [['p'], ['q']] Search.withoutT.settings = .ok found ∧
      found.map Found.files = [[['d', '/', 'x'], ['a']], [['B']]] ∧
      packed.metrics.charactersByPath = [(['B'], 2), (['a'], 1), (['d', '/', 'x'], 1)] ∧
      packed.metrics.Accounts ⟨fun _ content => content.length, List.length⟩
        (textFiles countingCharacters apartTree [['p'], ['q']] Search.withoutT.settings
          found) := by
  have hfound : searchAll apartTree [['p'], ['q']] Search.withoutT.settings =
      .ok [⟨[['d', '/', 'x'], ['a']], []⟩, ⟨[['B']], []⟩] := rfl
  have hpack := pack_of_searchAll countingCharacters hfound
  obtain ⟨found, hfound', -, haccounts, -⟩ := accounts_of_pack hpack
  rw [hfound] at hfound'
  obtain rfl := Except.ok.inj hfound'
  exact ⟨_, _, hpack, hfound, rfl, by decide +kernel, haccounts (by decide)⟩

/-- Two roots that both have a file `a`. -/
def twinTree : Folder :=
  [(['p'], .folder [(['a'], .file ⟨#[120]⟩)]), (['q'], .folder [(['a'], .file ⟨#[121, 122]⟩)])]

/-- Of the two files `a` only the later one has entries, and the ranking of two files has one. -/
theorem not_accounts_twinTree :
    ∃ packed found,
      pack countingCharacters twinTree [['p'], ['q']] Search.withoutT.settings = .ok packed ∧
      searchAll twinTree [['p'], ['q']] Search.withoutT.settings = .ok found ∧
      (textFiles countingCharacters twinTree [['p'], ['q']] Search.withoutT.settings found).map
          (fun f => (f.path, f.content)) = [(['a'], ['x']), (['a'], ['y', 'z'])] ∧
      packed.metrics.totalFiles = 2 ∧
      packed.metrics.charactersByPath = [(['a'], 2)] ∧
      packed.metrics.topFiles 2 = [(['a'], 2)] ∧
      ¬ packed.metrics.Accounts ⟨fun _ content => content.length, List.length⟩
        (textFiles countingCharacters twinTree [['p'], ['q']] Search.withoutT.settings found) := by
  have hfound : searchAll twinTree [['p'], ['q']] Search.withoutT.settings =
      .ok [⟨[['a']], []⟩, ⟨[['a']], []⟩] := rfl
  have hpack := pack_of_searchAll countingCharacters hfound
  have hfiles : (assemble countingCharacters twinTree [['p'], ['q']] Search.withoutT.settings
      [⟨[['a']], []⟩, ⟨[['a']], []⟩]).metrics.totalFiles = 2 := by decide +kernel
  have hcharacters : (assemble countingCharacters twinTree [['p'], ['q']]
      Search.withoutT.settings [⟨[['a']], []⟩, ⟨[['a']], []⟩]).metrics.charactersByPath =
        [(['a'], 2)] := by decide +kernel
  refine ⟨_, _, hpack, hfound, by decide +kernel, hfiles, hcharacters, by decide +kernel, ?_⟩
  intro h
  have heach := h.charactersEach
  rw [hcharacters, hfiles] at heach
  cases heach

end Bundle

end SourceBundle
