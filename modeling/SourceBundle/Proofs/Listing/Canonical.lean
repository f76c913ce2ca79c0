import Mathlib.Data.List.Dedup
import SourceBundle.Proofs.Listing.Files

/-!
# Listings are determined by their places

A listing is grown path by path, and each path finds what the ones before it have left: directories
that are there already, a file where a directory is to be, names that say nothing.  What comes out
does not tell this history.  The entries of every directory are strictly ascending, so no two of
them are of one name and kind, and the places of files and directories are those of the paths and
of what is on the way to them (`Node.Represents`).

Ascending entries leave no choice: two of them with files and directories at the same places are
equal, level by level, since the names and kinds at one level fix the order there and the places
below a name are those of the one directory of this name (`Ordered.eq_of_hasAt_iff`).
-/

open SourceBundle.Path

namespace SourceBundle.Listing

/-- A listing with files and directories at these places, and nothing else, in order. -/
structure Node.Represents (root : Node) (files folders : List (List Text)) : Prop where
  /-- The entries of every directory are strictly ascending. -/
  ascending : ∀ place, ∀ node ∈ root.entriesAt place,
    node.children.Pairwise fun a b => a.compare b = .lt
  /-- No two of them are of one name and kind. -/
  distinct : ∀ place, ∀ node ∈ root.entriesAt place,
    (node.children.map fun child => (child.isFolder, child.name)).Nodup
  /-- Nothing is below a file. -/
  leaf : ∀ place, ∀ node ∈ root.entriesAt place, node.isFolder = false → node.children = []
  /-- The files are at the given places. -/
  hasFile_iff : ∀ place, root.HasAt false place ↔ place ∈ files
  /-- The directories below the root are at the given places. -/
  hasFolder_iff : ∀ place, place ≠ [] → (root.HasAt true place ↔ place ∈ folders)

/-! ## Ordered entries -/

section Ordered

variable {nodes : List Node}

theorem Ordered.children {name : Text} {children : List Node} (h : Ordered nodes)
    (hmem : .folder name children ∈ nodes) : Ordered children := by
  induction h with
  | nil => cases hmem
  | file _ _ ih => exact ih (List.mem_of_ne_of_mem Node.noConfusion hmem)
  | folder _ orderedChildren _ _ ihRest =>
    rcases List.mem_cons.mp hmem with same | hmem
    · obtain ⟨-, rfl⟩ := Node.folder.inj same
      exact orderedChildren
    · exact ihRest hmem

theorem Ordered.pairwise (h : Ordered nodes) :
    nodes.Pairwise fun a b => a.compare b = .lt := by
  simp only [Node.compare_eq]
  induction h with
  | nil => exact .nil
  | file first _ ih => exact List.pairwise_cons.mpr ⟨first, ih⟩
  | folder first _ _ _ ihRest => exact List.pairwise_cons.mpr ⟨first, ihRest⟩

theorem Node.step_eq (node : Node) : node.step = (!node.isFolder, node.name) := by
  cases node <;> rfl

theorem Ordered.nodup_steps (h : Ordered nodes) : (nodes.map Node.step).Nodup := by
  have hsteps : (nodes.map Node.step).Pairwise fun a b => compareSteps a b = .lt :=
    List.pairwise_map.mpr (h.pairwise.imp fun hab => Node.compare_eq _ _ ▸ hab)
  exact nodup_of_pairwise_lt hsteps

/-- Every directory of ordered entries lists ordered entries. -/
theorem Ordered.pairwise_of_mem_entriesAt (h : Ordered nodes) (root : Text) {place : List Text}
    {node : Node} (hnode : node ∈ (Node.folder root nodes).entriesAt place) :
    node.children.Pairwise fun a b => a.compare b = .lt := by
  induction place generalizing root nodes with
  | nil =>
    obtain rfl := List.mem_singleton.mp hnode
    exact h.pairwise
  | cons name rest ih =>
    obtain ⟨child, hchild, -, hnode⟩ := Node.mem_entriesAt_cons.1 hnode
    cases child with
    | folder n children => exact ih (h.children hchild) n hnode
    | file n =>
      cases rest with
      | nil =>
        obtain rfl := List.mem_singleton.mp hnode
        exact .nil
      | cons next rest =>
        obtain ⟨child, hchild, -⟩ := Node.mem_entriesAt_cons.1 hnode
        cases hchild

/-- Below the name of a directory of ordered entries is what is in this directory. -/
theorem Ordered.hasAt_cons_iff (h : Ordered nodes) {name : Text} {children : List Node}
    (hmem : .folder name children ∈ nodes) (root : Text) {isFolder : Bool} {q : List Text}
    (hq : q ≠ []) :
    (Node.folder root nodes).HasAt isFolder (name :: q) ↔
      (Node.folder name children).HasAt isFolder q := by
  rw [Node.hasAt_cons]
  constructor
  · rintro ⟨child, hchild, hname, hplace⟩
    cases child with
    | file n => exact absurd (hasAt_file.1 hplace).1 hq
    | folder n children' =>
      have hstep : (Node.folder n children').step = (Node.folder name children).step := by
        rw [step_folder, step_folder, ← hname, Node.name]
      rwa [← List.inj_on_of_nodup_map h.nodup_steps hchild hmem hstep]
  · exact fun hplace => ⟨.folder name children, hmem, rfl, hplace⟩

end Ordered

/-- Ordered entries with files and directories at the same places are equal. -/
theorem Ordered.eq_of_hasAt_iff {xs ys : List Node} (hxs : Ordered xs) (hys : Ordered ys)
    (same : ∀ isFolder q, (Node.folder [] xs).HasAt isFolder q ↔
      (Node.folder [] ys).HasAt isFolder q) : xs = ys := by
  induction xs using levels_induction generalizing ys with
  | level xs ih =>
    have heq : ∀ a ∈ xs, ∀ b ∈ ys, a.name = b.name → a.isFolder = b.isFolder → a = b := by
      intro a ha b hb hname hkind
      cases a with
      | file n =>
        cases b with
        | file m => exact congrArg Node.file hname
        | folder m children' => cases hkind
      | folder n children =>
        cases b with
        | file m => cases hkind
        | folder m children' =>
          obtain rfl : n = m := hname
          refine congrArg (Node.folder n) ?_
          refine ih n children ha (hxs.children ha) (hys.children hb) fun isFolder q => ?_
          by_cases hq : q = []
          · subst hq
            rw [Node.hasAt_nil, Node.hasAt_nil, Node.isFolder, Node.isFolder]
          · rw [hasAt_folder [] n, ← hxs.hasAt_cons_iff ha [] hq, same,
              hys.hasAt_cons_iff hb [] hq, hasAt_folder n []]
    have hlevel : ∀ isFolder name, (∃ a ∈ xs, a.name = name ∧ a.isFolder = isFolder) ↔
        ∃ b ∈ ys, b.name = name ∧ b.isFolder = isFolder := by
      intro isFolder name
      have hsame := same isFolder [name]
      simpa only [Node.hasAt_cons, Node.hasAt_nil, Node.children] using hsame
    refine eq_of_pairwise_lt hxs.pairwise hys.pairwise fun node => ?_
    constructor <;> intro hnode
    · obtain ⟨b, hb, hname, hkind⟩ := (hlevel node.isFolder node.name).1 ⟨node, hnode, rfl, rfl⟩
      rwa [heq node hnode b hb hname.symm hkind.symm]
    · obtain ⟨a, ha, hname, hkind⟩ := (hlevel node.isFolder node.name).2 ⟨node, hnode, rfl, rfl⟩
      rwa [← heq a ha node hnode hname hkind]

/-! ## Counting -/

mutual

theorem Node.fileCount_eq_length : (node : Node) → node.fileCount = node.filePlaces.length
  | .file name => by rw [Node.fileCount, Node.filePlaces, List.length_singleton]
  | .folder name children => by
    rw [Node.fileCount, Node.filePlaces, List.length_map, countFiles_eq_length children]

theorem countFiles_eq_length : (nodes : List Node) →
    countFiles nodes = (allFilePlaces nodes).length
  | [] => by rw [countFiles, allFilePlaces_nil, List.length_nil]
  | node :: rest => by
    rw [countFiles, allFilePlaces, List.length_append, Node.fileCount_eq_length node,
      countFiles_eq_length rest]

end

/-- A listing has one file for each place of a file. -/
theorem fileCount_build (files emptyDirs : List Text) :
    (build files emptyDirs).fileCount = (filePlacesOf files).dedup.length := by
  have hcount : (build files emptyDirs).fileCount =
      (allFilePlaces (build files emptyDirs).children).length := by
    rw [build_eq, Node.fileCount, countFiles_eq_length, Node.children]
  have hnodup := nodup_of_pairwise_lt (pairwise_filePlaces_build files emptyDirs)
  have hperm : (allFilePlaces (build files emptyDirs).children).Perm
      (filePlacesOf files).dedup := by
    refine (List.perm_ext_iff_of_nodup hnodup (List.nodup_dedup _)).2 fun q => ?_
    rw [mem_filePlaces_build, List.mem_dedup, mem_filePlacesOf]
  rw [hcount, hperm.length_eq]

/-! ## Listings -/

theorem ordered_entries (files emptyDirs : List Text) :
    Ordered (inOrder (allSorted (entriesOf files emptyDirs))) :=
  ordered_sorted (tidy_entriesOf files emptyDirs)

theorem build_represents (files emptyDirs : List Text) :
    (build files emptyDirs).Represents (filePlacesOf files) (folderPlacesOf files emptyDirs) := by
  have hascending : ∀ place, ∀ node ∈ (build files emptyDirs).entriesAt place,
      node.children.Pairwise fun a b => a.compare b = .lt := by
    intro place node hnode
    rw [build_eq] at hnode
    exact (ordered_entries files emptyDirs).pairwise_of_mem_entriesAt [] hnode
  constructor
  · exact hascending
  · intro place node hnode
    refine List.pairwise_map.mpr ((hascending place node hnode).imp fun {a b} hab hsame => ?_)
    obtain ⟨hkind, hname⟩ := Prod.mk.inj hsame
    have hself : compareSteps b.step b.step = .eq := Std.ReflCmp.compare_self
    rw [Node.compare_eq, a.step_eq, hkind, hname, ← b.step_eq, hself] at hab
    cases hab
  · intro place node hnode hkind
    cases node with
    | file name => rfl
    | folder name children => cases hkind
  · exact fun place => hasFile_build
  · exact fun place hplace => hasFolder_build hplace

/-- Listings with the same places are equal. -/
theorem build_eq_of_places {files files' emptyDirs emptyDirs' : List Text}
    (hfiles : ∀ place, place ∈ filePlacesOf files' ↔ place ∈ filePlacesOf files)
    (hfolders : ∀ place, place ∈ folderPlacesOf files' emptyDirs' ↔
      place ∈ folderPlacesOf files emptyDirs) :
    build files' emptyDirs' = build files emptyDirs := by
  have hentries := (ordered_entries files' emptyDirs').eq_of_hasAt_iff
    (ordered_entries files emptyDirs) fun isFolder q => ?_
  · rw [build_eq, build_eq, hentries]
  · rw [← build_eq, ← build_eq]
    cases isFolder with
    | false => rw [hasFile_build, hasFile_build, hfiles]
    | true =>
      by_cases hq : q = []
      · subst hq
        rw [build_eq, build_eq, Node.hasAt_nil, Node.hasAt_nil, Node.isFolder, Node.isFolder]
      · rw [hasFolder_build hq, hasFolder_build hq, hfolders]

/-- A listing represents the places of its files and directories and counts every file once.  Paths
with the same places make the same listing, and these do not depend on the order and the repetition
of the paths. -/
theorem build_canonical (files emptyDirs : List Text) :
    (build files emptyDirs).Represents (filePlacesOf files) (folderPlacesOf files emptyDirs) ∧
      (build files emptyDirs).fileCount = (filePlacesOf files).dedup.length ∧
      (∀ files' emptyDirs' : List Text,
        (∀ place, place ∈ filePlacesOf files' ↔ place ∈ filePlacesOf files) →
        (∀ place, place ∈ folderPlacesOf files' emptyDirs' ↔
          place ∈ folderPlacesOf files emptyDirs) →
        build files' emptyDirs' = build files emptyDirs ∧
          ofPaths files' emptyDirs' = ofPaths files emptyDirs) ∧
      ∀ files' emptyDirs' : List Text, (∀ path, path ∈ files' ↔ path ∈ files) →
        (∀ path, path ∈ emptyDirs' ↔ path ∈ emptyDirs) →
        build files' emptyDirs' = build files emptyDirs := by
  refine ⟨build_represents files emptyDirs, fileCount_build files emptyDirs, ?_, ?_⟩
  · intro files' emptyDirs' hfiles hfolders
    have hbuild := build_eq_of_places hfiles hfolders
    exact ⟨hbuild, congrArg Node.draw hbuild⟩
  · intro files' emptyDirs' hfiles hdirs
    refine build_eq_of_places (fun place => ?_) fun place => ?_
    · simp only [mem_filePlacesOf, hfiles]
    · simp only [mem_folderPlacesOf, hfiles, hdirs]

/-! ## A listing of untidy paths -/

/-- Paths that are spelled in different ways, one twice and two that name nothing, and a file with
the name of a directory. -/
def untidyFiles : List Text :=
  ["b//a".toList, "c".toList, ".".toList, "./b\\a".toList, "".toList, "C/c".toList]

/-- Empty directories, one of which holds a file and one another empty directory. -/
def untidyDirs : List Text := ["c/".toList, "b".toList, "b/./d".toList, "c/e".toList]

/-- The same paths as names only. -/
def tidyFiles : List Text := ["C/c".toList, "b/a".toList, "c".toList]

/-- The empty directories without those that are on the way to others. -/
def tidyDirs : List Text := ["c/e".toList, "b/d".toList]

theorem build_canonical_untidy :
    (∀ place, place ∈ filePlacesOf untidyFiles ↔ place ∈ filePlacesOf tidyFiles) ∧
      (∀ place, place ∈ folderPlacesOf untidyFiles untidyDirs ↔
        place ∈ folderPlacesOf tidyFiles tidyDirs) ∧
      build untidyFiles untidyDirs = build tidyFiles tidyDirs ∧
      build untidyFiles.reverse untidyDirs.reverse = build untidyFiles untidyDirs ∧
      (build untidyFiles untidyDirs).fileCount = 3 ∧
      ofPaths untidyFiles untidyDirs =
        ("├── b/\n│   ├── d/\n│   └── a\n├── C/\n│   └── c\n" ++
          "├── c/\n│   └── e/\n└── c\n").toList := by
  have hfiles : filePlacesOf untidyFiles ⊆ filePlacesOf tidyFiles ∧
      filePlacesOf tidyFiles ⊆ filePlacesOf untidyFiles := by decide
  have hfolders : folderPlacesOf untidyFiles untidyDirs ⊆ folderPlacesOf tidyFiles tidyDirs ∧
      folderPlacesOf tidyFiles tidyDirs ⊆ folderPlacesOf untidyFiles untidyDirs := by decide
  have hfile : ∀ place, place ∈ filePlacesOf untidyFiles ↔ place ∈ filePlacesOf tidyFiles :=
    fun place => ⟨@hfiles.1 place, @hfiles.2 place⟩
  have hfolder : ∀ place, place ∈ folderPlacesOf untidyFiles untidyDirs ↔
      place ∈ folderPlacesOf tidyFiles tidyDirs :=
    fun place => ⟨@hfolders.1 place, @hfolders.2 place⟩
  obtain ⟨-, -, hsame, -⟩ := build_canonical tidyFiles tidyDirs
  obtain ⟨-, hcount, -, hmembers⟩ := build_canonical untidyFiles untidyDirs
  obtain ⟨hbuild, hdraw⟩ := hsame untidyFiles untidyDirs hfile hfolder
  have hreverse := hmembers untidyFiles.reverse untidyDirs.reverse (fun _ => List.mem_reverse)
    fun _ => List.mem_reverse
  exact ⟨hfile, hfolder, hbuild, hreverse, hcount.trans (by decide),
    hdraw.trans (by decide +kernel)⟩

end SourceBundle.Listing
