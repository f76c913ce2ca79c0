import SourceBundle.Proofs.Search.EmptyDirs
import SourceBundle.Proofs.Text.Pieces

/-!
# Which directories are empty

A search reports a directory as empty when nothing in it is visible, however deep one looks
(`Entry.IsHollow`).  Two ways of going through the tree meet there.  Whether the directory is looked
at is a matter of the walk, which the patterns and the ignore files hold back (`SelectsDir`); what is
in it is read without regard to them, and stops at hidden names only.

The directories that both let through are reported, and no others (`emptyDirs_run`).  A search may
well find files in them, but each of these is hidden or lies in a hidden directory
(`Entry.IsHollow.exists_isHidden`).

As with files, a root that is written as a single dash is the exception, and nothing is reported
there (`run_hollowDash`).
-/

namespace SourceBundle.Search

open Glob

/-! ## Hollow directories -/

/-- The name is that of a hidden entry. -/
def IsHidden (name : Text) : Prop := name.head? = some '.'

/-- The entry is a directory in which each entry is hidden or such a directory again. -/
inductive Entry.IsHollow : Entry → Prop
  | folder {entries : Folder}
    (h : ∀ name e, (name, e) ∈ entries → ¬ IsHidden name → Entry.IsHollow e) :
    Entry.IsHollow (.folder entries)

theorem Entry.isHollow_folder {entries : Folder} :
    Entry.IsHollow (.folder entries) ↔
      ∀ name e, (name, e) ∈ entries → ¬ IsHidden name → Entry.IsHollow e := by
  constructor
  · rintro ⟨h⟩
    exact h
  · exact .folder

mutual

/-- Reading the contents of a directory tells whether it is hollow. -/
theorem Entry.holdsOnlyHidden_iff : (e : Entry) →
    (Entry.holdsOnlyHidden e = true ↔ Entry.IsHollow e)
  | .file _ => by
    constructor <;> nofun
  | .link _ => by
    constructor <;> nofun
  | .folder entries => by
    rw [Entry.holdsOnlyHidden, areOnlyHidden_iff entries, Entry.isHollow_folder]

theorem areOnlyHidden_iff : (entries : Folder) →
    (areOnlyHidden entries = true ↔
      ∀ name e, (name, e) ∈ entries → ¬ IsHidden name → Entry.IsHollow e)
  | [] => by simp [areOnlyHidden]
  | (first, e) :: rest => by
    have hfirst : (first.head? == some '.' || Entry.holdsOnlyHidden e) = true ↔
        (¬ IsHidden first → Entry.IsHollow e) := by
      rw [Bool.or_eq_true, beq_iff_eq, Entry.holdsOnlyHidden_iff e, IsHidden, or_iff_not_imp_left]
    rw [areOnlyHidden, Bool.and_eq_true, hfirst, areOnlyHidden_iff rest]
    simp only [List.mem_cons, Prod.mk.injEq, or_imp, forall_and, and_imp]
    simp

end

/-- A file in a hollow directory is hidden, or one of the directories on the way to it is. -/
theorem Entry.IsHollow.exists_isHidden {e : Entry} (h : Entry.IsHollow e) {place : Place}
    {content : ByteArray} (hat : e.at? place = some (.file content)) :
    ∃ name ∈ place, IsHidden name := by
  induction h generalizing place with
  | @folder entries h ih =>
    cases place with
    | nil => cases hat
    | cons name rest =>
      by_cases hname : IsHidden name
      · exact ⟨name, List.mem_cons_self, hname⟩
      · rw [Entry.at?_folder, Folder.at?_cons, Option.bind_eq_some_iff] at hat
        obtain ⟨e, hfind, hat⟩ := hat
        obtain ⟨hidden, hmem, hhidden⟩ := ih name e (Folder.mem_of_find? hfind) hname hat
        exact ⟨hidden, List.mem_cons_of_mem name hmem, hhidden⟩

/-! ## Selected directories -/

/-- The settings and the ignore files select the directory at `names` below the root directory, and
nothing in it is visible. -/
structure SelectsDir (tree : Folder) (root : Text) (place : Place) (entries : Folder) (s : Settings)
    (names : List Text) : Prop where
  isBelow : names ≠ []
  isHollow : ∃ e, entries.at? names = some e ∧ Entry.IsHollow e
  included : ∃ raw ∈ includePatterns s.includes, acceptsDir raw (Text.join ['/'] names)
  notIgnored : ∀ dir, dir ≠ [] → dir <+: names →
    ∀ raw ∈ ignorePatterns tree place s.ignore, acceptsDir raw (Text.join ['/'] dir) = false
  kept : ∀ dir, dir ≠ [] → dir <+: names → (rulesBelow tree root place s).excludes dir true = false

section

variable {tree entries : Folder} {root : Text} {place : Place} {s : Settings}
  {includes ignores : PatternSet}

/-- A directory is visited if it and those on the way to it are neither excluded nor pruned. -/
theorem reaches_dir (hignores : ignores.AcceptsAsTexts (ignorePatterns tree place s.ignore))
    {names : List Text} (hne : names ≠ []) :
    (guideFor tree root place s.ignore.useGitignore ignores).Reaches [] names true ↔
      ∀ dir, dir ≠ [] → dir <+: names →
        (rulesBelow tree root place s).excludes dir true = false ∧
          ∀ raw ∈ ignorePatterns tree place s.ignore,
            acceptsDir raw (Text.join ['/'] dir) = false := by
  simp only [← enters_guideFor hignores]
  constructor
  · intro h dir hdir hpre
    by_cases hself : dir = names
    · rw [hself]
      exact h.opened rfl
    · exact h.entered dir hdir hpre hself
  · intro h
    have hself := h names hne List.prefix_rfl
    refine ⟨?_, fun _ => hself, fun dir hdir hpre _ => h dir hdir hpre⟩
    exact ((enters_guideFor hignores).1 hself).1

theorem selectsDir_iff (hincludes : includes.AcceptsAsTexts (includePatterns s.includes))
    (hignores : ignores.AcceptsAsTexts (ignorePatterns tree place s.ignore)) {v : Visit} :
    selectsDir includes ignores v ↔
      Entry.IsHollow v.entry ∧
        (∃ raw ∈ includePatterns s.includes, acceptsDir raw v.path) ∧
        ∀ raw ∈ ignorePatterns tree place s.ignore, acceptsDir raw v.path = false := by
  rw [selectsDir, ← Entry.holdsOnlyHidden_iff, hincludes.dir, hignores.dir]
  simp [and_assoc]

/-- What the walk visits and the patterns let through is what the settings select. -/
theorem exists_visit_iff_selectsDir (hproper : entries.isProper)
    (hinput : (rulesBelow tree root place s).isInput = false)
    (hincludes : includes.AcceptsAsTexts (includePatterns s.includes))
    (hignores : ignores.AcceptsAsTexts (ignorePatterns tree place s.ignore)) {names : List Text} :
    (∃ v ∈ walk (guideFor tree root place s.ignore.useGitignore ignores) entries,
        selectsDir includes ignores v ∧ v.names = names) ↔
      SelectsDir tree root place entries s names := by
  have hinput' : (guideFor tree root place s.ignore.useGitignore ignores).isInput = false := hinput
  have hfolder : ∀ {e : Entry}, Entry.IsHollow e → e.isFolder = true := by
    rintro _ ⟨-⟩
    rfl
  constructor
  · rintro ⟨v, hv, hselects, rfl⟩
    obtain ⟨hne, hat, hreach⟩ := (mem_walk hproper hinput').1 hv
    obtain ⟨hhollow, hin, -⟩ := (selectsDir_iff hincludes hignores).1 hselects
    rw [hfolder hhollow, reaches_dir hignores hne] at hreach
    exact
      { isBelow := hne
        isHollow := ⟨v.entry, hat, hhollow⟩
        included := hin
        notIgnored := fun dir hdir hpre => (hreach dir hdir hpre).2
        kept := fun dir hdir hpre => (hreach dir hdir hpre).1 }
  · intro h
    obtain ⟨e, hat, hhollow⟩ := h.isHollow
    have hreach : (guideFor tree root place s.ignore.useGitignore ignores).Reaches [] names true :=
      (reaches_dir hignores h.isBelow).2 fun dir hdir hpre =>
        ⟨h.kept dir hdir hpre, h.notIgnored dir hdir hpre⟩
    rw [← hfolder hhollow] at hreach
    refine ⟨⟨names, e⟩, (mem_walk hproper hinput').2 ⟨h.isBelow, hat, hreach⟩, ?_, rfl⟩
    exact (selectsDir_iff hincludes hignores).2
      ⟨hhollow, h.included, h.notIgnored names h.isBelow List.prefix_rfl⟩

/-- A file that is found below a reported directory is hidden there. -/
theorem SelectsDir.exists_isHidden {names : List Text}
    (h : SelectsDir tree root place entries s names) (hproper : entries.isProper) {below : Text}
    {names' : List Text} (hfile : Selects tree root place entries s names')
    (hpath : Text.join ['/'] names ++ '/' :: below = Text.join ['/'] names') :
    ∃ name ∈ Path.components below, IsHidden name := by
  obtain ⟨e, hat, hhollow⟩ := h.isHollow
  obtain ⟨content, hcontent⟩ := hfile.isFile
  have hnames : Path.components (Text.join ['/'] names) = names :=
    components_join h.isBelow (Folder.slash_not_mem hproper hat)
  have hnames' : names' = names ++ Path.components below := by
    calc names' = Path.components (Text.join ['/'] names ++ '/' :: below) := by
          rw [hpath, hfile.components_join hproper]
      _ = Path.components (Text.join ['/'] names) ++ Path.components below :=
          Text.pieces_append _ below
      _ = names ++ Path.components below := by rw [hnames]
  rw [hnames', Folder.at?_append, hat, Option.bind_some] at hcontent
  exact hhollow.exists_isHidden hcontent

/-- On demand the hollow directories that are selected are gathered. -/
theorem mem_emptyDirs_of_gather {o : Overrides} (hs : o.merge = .ok s)
    (hdemand : s.output.includeEmptyDirectories = true)
    (hroot : rootFolder tree root = .ok (place, entries)) (hproper : entries.isProper)
    (hinput : (rulesBelow tree root place s).isInput = false) {gathered : Found}
    (hgather : gather tree root s = .ok gathered) {path : Text} :
    path ∈ gathered.emptyDirs ↔
      ∃ names, path = Text.join ['/'] names ∧ SelectsDir tree root place entries s names := by
  obtain ⟨includes, ignores, hin, hout, rfl⟩ := exists_sets_of_gather hs hroot hgather
  simp only [if_pos hdemand, ← exists_visit_iff_selectsDir hproper hinput hin hout, List.mem_map,
    List.mem_filter]
  constructor
  · rintro ⟨v, ⟨hv, hselects⟩, rfl⟩
    exact ⟨v.names, rfl, v, hv, hselects, rfl⟩
  · rintro ⟨names, rfl, v, hv, hselects, rfl⟩
    exact ⟨v, ⟨hv, hselects⟩, rfl⟩

/-- A search on demand reports the hollow directories that are selected, and what else it finds in
them is hidden. -/
theorem emptyDirs_run (sorter : Path.Sorter) {o : Overrides} (hs : o.merge = .ok s)
    (hdemand : s.output.includeEmptyDirectories = true)
    (hroot : rootFolder tree root = .ok (place, entries)) (hproper : entries.isProper)
    (hinput : (rulesBelow tree root place s).isInput = false) :
    (DirsSettle tree root s → (runBy sorter tree root s).isSome) ∧
      ∀ outcome ∈ runBy sorter tree root s, ∃ found, outcome = .ok found ∧
        (∀ path, path ∈ found.emptyDirs ↔
          ∃ names, path = Text.join ['/'] names ∧ SelectsDir tree root place entries s names) ∧
        ∀ dir ∈ found.emptyDirs, ∀ below, dir ++ '/' :: below ∈ found.files →
          ∃ name ∈ Path.components below, IsHidden name := by
  refine ⟨isSome_runBy sorter hroot hproper, fun outcome houtcome => ?_⟩
  obtain ⟨gathered, hgather⟩ := exists_gather hs hroot
  obtain ⟨found, rfl, hfiles, hdirs⟩ := exists_of_mem_runBy hgather houtcome
  have hmem : ∀ path, path ∈ found.emptyDirs ↔
      ∃ names, path = Text.join ['/'] names ∧ SelectsDir tree root place entries s names := by
    intro path
    rw [Path.Sorter.mem_of_sort? hdirs,
      mem_emptyDirs_of_gather hs hdemand hroot hproper hinput hgather]
  refine ⟨found, rfl, hmem, fun dir hdir below hbelow => ?_⟩
  obtain ⟨names, rfl, hselects⟩ := (hmem dir).1 hdir
  rw [Path.Sorter.mem_of_sort? hfiles] at hbelow
  obtain ⟨names', hpath, hfile⟩ := selects_of_mem_files hs hroot hproper hgather hbelow
  exact hselects.exists_isHidden hproper hfile hpath

end

/-- Overrides that ask for empty directories and leave out what lies below a directory `t`. -/
def emptyDirsWithoutT : Overrides :=
  { output := some { includeEmptyDirectories := some true }
    ignore := some { useDefaultPatterns := some false, customPatterns := some [['t', '/']] } }

/-- The directories of `hollowTree`, an empty directory `t`, and a directory with a link in it. -/
def hollowEntries : Folder :=
  hollowTree ++ [(['t'], .folder []), (['l'], .folder [(['a'], .link ['e'])])]

theorem emptyDirs_run_hollowEntries :
    let s := emptyDirsWithoutT.settings
    emptyDirsWithoutT.merge = .ok s ∧ s.output.includeEmptyDirectories = true ∧
      rootFolder hollowEntries ['.'] = .ok ([], hollowEntries) ∧
      hollowEntries.isProper ∧
      (rulesBelow hollowEntries ['.'] [] s).isInput = false ∧
      run hollowEntries ['.'] s =
        .ok ⟨[['d', '/', '.', 'h']], [['d'], ['d', '/', 'x'], ['e']]⟩ ∧
      (∀ sorter, (runBy sorter hollowEntries ['.'] s).isSome) ∧
      (∀ path, path ∈ [['d'], ['d', '/', 'x'], ['e']] ↔
        ∃ names, path = Text.join ['/'] names ∧
          SelectsDir hollowEntries ['.'] [] hollowEntries s names) ∧
      ∃ name ∈ Path.components ['.', 'h'], IsHidden name := by
  intro s
  have hmerge : emptyDirsWithoutT.merge = .ok s := rfl
  have hroot : rootFolder hollowEntries ['.'] = .ok ([], hollowEntries) := rfl
  have hproper : hollowEntries.isProper := by decide
  have hinput : (rulesBelow hollowEntries ['.'] [] s).isInput = false := by decide
  have hrun : run hollowEntries ['.'] s =
      .ok ⟨[['d', '/', '.', 'h']], [['d'], ['d', '/', 'x'], ['e']]⟩ := by
    decide +kernel
  have hdirs : DirsSettle hollowEntries ['.'] s := by
    intro gathered hgather
    have hthree : gather hollowEntries ['.'] s =
        .ok ⟨[['d', '/', '.', 'h']], [['e'], ['d'], ['d', '/', 'x']]⟩ := by
      decide +kernel
    obtain rfl := Except.ok.inj (hthree.symm.trans hgather)
    exact .inl (by decide)
  have hemptyDirs := fun sorter => emptyDirs_run sorter hmerge rfl hroot hproper hinput
  obtain ⟨found, hfound, hmem, hhidden⟩ := (hemptyDirs .insertion).2 _ (runBy_insertion _ _ _)
  obtain rfl := Except.ok.inj (hrun.symm.trans hfound)
  exact ⟨hmerge, rfl, hroot, hproper, hinput, hrun, fun sorter => (hemptyDirs sorter).1 hdirs, hmem,
    hhidden ['d'] (by decide) ['.', 'h'] (by decide)⟩

/-- An empty directory `e`. -/
def hollowE : Folder := [(['e'], .folder [])]

/-- The empty directory in the directory `-` is selected and not reported. -/
theorem run_hollowDash :
    let s := withEmptyDirs.settings
    withEmptyDirs.merge = .ok s ∧ s.output.includeEmptyDirectories = true ∧
      rootFolder [(['-'], .folder hollowE)] ['-'] = .ok ([['-']], hollowE) ∧
      hollowE.isProper ∧
      SelectsDir [(['-'], .folder hollowE)] ['-'] [['-']] hollowE s [['e']] ∧
      run [(['-'], .folder hollowE)] ['-'] s = .ok ⟨[], []⟩ := by
  intro s
  have alone : ∀ dir : List Text, dir ≠ [] → dir <+: [['e']] → dir = [['e']] := by
    intro dir hne hpre
    obtain ⟨rest, rfl, hrest⟩ := (List.prefix_cons_iff.mp hpre).resolve_left hne
    rw [List.prefix_nil.mp hrest]
  have hrun : run [(['-'], .folder hollowE)] ['-'] s = .ok ⟨[], []⟩ := rfl
  refine ⟨rfl, rfl, rfl, by decide, ?_, hrun⟩
  exact
    { isBelow := List.cons_ne_nil _ _
      isHollow := ⟨.folder [], rfl, .folder nofun⟩
      included := by decide
      notIgnored := by
        intro dir hne hpre
        rw [alone dir hne hpre]
        decide
      kept := by
        intro dir hne hpre
        rw [alone dir hne hpre]
        decide }

end SourceBundle.Search
