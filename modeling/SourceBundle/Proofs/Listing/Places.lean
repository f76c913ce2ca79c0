import Mathlib.Data.List.Infix
import SourceBundle.Listing
import SourceBundle.Proofs.Sorting

/-!
# The places of a listing

Where an entry of a listing is, is told by the names that lead to it from the root
(`Node.entriesAt`).  A directory and a file may have one name, so names may lead to more than one
entry; whether there is a file or a directory is one question each (`Node.HasAt`).

Both have an answer that does not mention how the listing was made.  Insertion of a path adds what
is on the way to its place, each name on it a directory and the last one what is inserted
(`hasAt_inFolder`), and sorting moves nothing to another place (`hasAt_sorted`).  So the files of a
listing are at the places of the files, and the directories on the way to these and to the places
of the empty directories (`hasAt_build`).
-/

namespace SourceBundle.Listing

/-- The entries at a place below an entry: those to which the names lead. -/
def Node.entriesAt : List Text → Node → List Node
  | [], node => [node]
  | name :: rest, node =>
    (node.children.filter fun child => child.name == name).flatMap (Node.entriesAt rest)

/-- A directory, or else a file, is at the place. -/
def Node.HasAt (node : Node) (isFolder : Bool) (place : List Text) : Prop :=
  ∃ entry ∈ node.entriesAt place, entry.isFolder = isFolder

theorem Node.mem_entriesAt_cons {node entry : Node} {name : Text} {rest : List Text} :
    entry ∈ node.entriesAt (name :: rest) ↔
      ∃ child ∈ node.children, child.name = name ∧ entry ∈ child.entriesAt rest := by
  simp [Node.entriesAt, and_assoc]

@[simp] theorem Node.hasAt_nil {node : Node} {isFolder : Bool} :
    node.HasAt isFolder [] ↔ node.isFolder = isFolder := by
  simp [Node.HasAt, Node.entriesAt]

theorem Node.hasAt_cons {node : Node} {isFolder : Bool} {name : Text} {rest : List Text} :
    node.HasAt isFolder (name :: rest) ↔
      ∃ child ∈ node.children, child.name = name ∧ child.HasAt isFolder rest := by
  simp only [Node.HasAt, Node.mem_entriesAt_cons]
  constructor
  · rintro ⟨entry, ⟨child, hchild, hname, hentry⟩, hkind⟩
    exact ⟨child, hchild, hname, entry, hentry, hkind⟩
  · rintro ⟨child, hchild, hname, entry, hentry, hkind⟩
    exact ⟨entry, ⟨child, hchild, hname, hentry⟩, hkind⟩

/-- Nothing is below a file. -/
@[simp] theorem hasAt_file {name : Text} {isFolder : Bool} {place : List Text} :
    (Node.file name).HasAt isFolder place ↔ place = [] ∧ isFolder = false := by
  cases place with
  | nil => simp [Node.isFolder, eq_comm]
  | cons next rest => simp [Node.hasAt_cons, Node.children]

/-- Whether something is at a place depends on the entries of a directory only. -/
theorem hasAt_folder (name name' : Text) {children : List Node} {isFolder : Bool}
    {place : List Text} :
    (Node.folder name children).HasAt isFolder place ↔
      (Node.folder name' children).HasAt isFolder place := by
  cases place with
  | nil => rw [Node.hasAt_nil, Node.hasAt_nil]; rfl
  | cons next rest => rw [Node.hasAt_cons, Node.hasAt_cons]; rfl

/-- What holds of the entries of a directory when it holds of those below them holds of all
entries. -/
theorem levels_induction {P : List Node → Prop}
    (level : ∀ nodes, (∀ name children, .folder name children ∈ nodes → P children) → P nodes)
    (nodes : List Node) : P nodes :=
  level nodes fun _ children _ => levels_induction level children
termination_by sizeOf nodes
decreasing_by
  have hsize := List.sizeOf_lt_of_mem ‹_ ∈ nodes›
  rw [Node.folder.sizeOf_spec] at hsize
  omega

/-! ## Insertion -/

/-- On the way to a place are directories, and at its end is a directory or a file. -/
def IsOnWay (endsInFolder : Bool) (place : List Text) (isFolder : Bool) (q : List Text) : Prop :=
  q <+: place ∧ isFolder = (endsInFolder || q != place)

theorem isOnWay_nil {endsInFolder isFolder : Bool} {place : List Text}
    (h : place ≠ [] ∨ endsInFolder = true) :
    IsOnWay endsInFolder place isFolder [] ↔ isFolder = true := by
  have hkind : (endsInFolder || [] != place) = true := by
    rw [Bool.or_eq_true, bne_iff_ne]
    exact h.symm.imp_right Ne.symm
  rw [IsOnWay, hkind, and_iff_right List.nil_prefix]

theorem isOnWay_cons {endsInFolder isFolder : Bool} {name next : Text} {rest q : List Text} :
    IsOnWay endsInFolder (name :: rest) isFolder (next :: q) ↔
      next = name ∧ IsOnWay endsInFolder rest isFolder q := by
  rw [IsOnWay, IsOnWay, List.cons_prefix_cons, and_assoc]
  refine and_congr_right fun same => ?_
  rw [same, bne, bne, List.cons_beq_cons, beq_self_eq_true, Bool.true_and]

section Insertion

variable {endsInFolder isFolder : Bool} {change : List Node → List Node} {place : List Text}

/-- A change that adds what is on the way to a place, made in the directory of a name, adds it below
this name. -/
theorem exists_hasAt_inFolder (hplace : place ≠ [] ∨ endsInFolder = true)
    (h : ∀ name nodes q, (Node.folder name (change nodes)).HasAt isFolder q ↔
      IsOnWay endsInFolder place isFolder q ∨ (Node.folder name nodes).HasAt isFolder q)
    (name next : Text) (nodes : List Node) (q : List Text) :
    (∃ child ∈ inFolder name change nodes, child.name = next ∧ child.HasAt isFolder q) ↔
      (next = name ∧ IsOnWay endsInFolder place isFolder q) ∨
        ∃ child ∈ nodes, child.name = next ∧ child.HasAt isFolder q := by
  induction nodes with
  | nil =>
    -- The new directory itself is on the way.
    have hempty : (Node.folder name []).HasAt isFolder q →
        IsOnWay endsInFolder place isFolder q := by
      intro hnew
      cases q with
      | nil => exact (isOnWay_nil hplace).2 (Node.hasAt_nil.1 hnew).symm
      | cons next rest => simp [Node.hasAt_cons, Node.children] at hnew
    simp only [inFolder, List.mem_singleton, exists_eq_left, h, List.not_mem_nil, false_and,
      exists_false, or_false, or_iff_left_of_imp hempty]
    exact and_congr_left' eq_comm
  | cons node rest ih =>
    cases node with
    | file n =>
      rw [inFolder]
      simp only [List.exists_mem_cons_iff, ih]
      exact or_left_comm
    | folder n children =>
      rw [inFolder]
      split
      · rename_i same
        simp only [List.exists_mem_cons_iff, h, same, Node.name, and_or_left, or_assoc]
        rw [@eq_comm _ next name]
      · simp only [List.exists_mem_cons_iff, ih]
        exact or_left_comm

/-- From the directory above, what is added is on the way to the place behind the name. -/
theorem hasAt_inFolder (hplace : place ≠ [] ∨ endsInFolder = true)
    (h : ∀ name nodes q, (Node.folder name (change nodes)).HasAt isFolder q ↔
      IsOnWay endsInFolder place isFolder q ∨ (Node.folder name nodes).HasAt isFolder q)
    (name root : Text) (nodes : List Node) (q : List Text) :
    (Node.folder root (inFolder name change nodes)).HasAt isFolder q ↔
      IsOnWay endsInFolder (name :: place) isFolder q ∨
        (Node.folder root nodes).HasAt isFolder q := by
  cases q with
  | nil =>
    rw [Node.hasAt_nil, Node.hasAt_nil, isOnWay_nil (.inl (List.cons_ne_nil name place))]
    simp [Node.isFolder, eq_comm]
  | cons next rest =>
    rw [Node.hasAt_cons, Node.hasAt_cons, isOnWay_cons]
    exact exists_hasAt_inFolder hplace h name next nodes rest

theorem mem_withFile {name : Text} {nodes : List Node} {node : Node} :
    node ∈ withFile name nodes ↔ node = .file name ∨ node ∈ nodes := by
  induction nodes with
  | nil => simp [withFile]
  | cons first rest ih =>
    cases first with
    | file n =>
      rw [withFile]
      split
      · rename_i same
        simp [same]
      · rw [List.mem_cons, ih, List.mem_cons]
        exact or_left_comm
    | folder n children =>
      rw [withFile, List.mem_cons, ih, List.mem_cons]
      exact or_left_comm

theorem hasAt_withFile (name root : Text) (nodes : List Node) (q : List Text) :
    (Node.folder root (withFile name nodes)).HasAt isFolder q ↔
      IsOnWay false [name] isFolder q ∨ (Node.folder root nodes).HasAt isFolder q := by
  cases q with
  | nil =>
    rw [Node.hasAt_nil, Node.hasAt_nil, isOnWay_nil (.inl (List.cons_ne_nil name []))]
    simp [Node.isFolder, eq_comm]
  | cons next rest =>
    have hfile : IsOnWay false [] isFolder rest ↔ rest = [] ∧ isFolder = false := by
      rw [IsOnWay, List.prefix_nil, Bool.false_or]
      exact and_congr_right fun hrest => by simp [hrest]
    rw [Node.hasAt_cons, Node.hasAt_cons, isOnWay_cons, hfile]
    simp only [Node.children, mem_withFile, or_and_right, exists_or, exists_eq_left, hasAt_file,
      Node.name]
    rw [@eq_comm _ next name]

/-- Adding a file adds what is on the way to it. -/
theorem hasAt_addFile {place : List Text} (hplace : place ≠ []) (root : Text) (nodes : List Node)
    (q : List Text) :
    (Node.folder root (addFile place nodes)).HasAt isFolder q ↔
      IsOnWay false place isFolder q ∨ (Node.folder root nodes).HasAt isFolder q := by
  induction place generalizing root nodes q with
  | nil => exact absurd rfl hplace
  | cons name rest ih =>
    cases rest with
    | nil => exact hasAt_withFile name root nodes q
    | cons next rest =>
      have hrest : next :: rest ≠ [] := List.cons_ne_nil next rest
      exact hasAt_inFolder (.inl hrest) (ih hrest) name root nodes q

/-- Adding a directory adds what is on the way to it. -/
theorem hasAt_addFolder (place : List Text) (root : Text) (nodes : List Node) (q : List Text) :
    (Node.folder root (addFolder place nodes)).HasAt isFolder q ↔
      IsOnWay true place isFolder q ∨ (Node.folder root nodes).HasAt isFolder q := by
  induction place generalizing root nodes q with
  | nil =>
    rw [addFolder, or_iff_right_of_imp]
    rintro ⟨hq, hkind⟩
    rw [List.prefix_nil.1 hq, hkind, Node.hasAt_nil]
    rfl
  | cons name rest ih => exact hasAt_inFolder (.inr rfl) ih name root nodes q

/-- Paths that are inserted one by one add what each of them adds. -/
theorem hasAt_foldl {insert : List Node → Text → List Node} {added : Text → List Text → Prop}
    (h : ∀ path root nodes q, (Node.folder root (insert nodes path)).HasAt isFolder q ↔
      added path q ∨ (Node.folder root nodes).HasAt isFolder q)
    (paths : List Text) (root : Text) (nodes : List Node) (q : List Text) :
    (Node.folder root (paths.foldl insert nodes)).HasAt isFolder q ↔
      (∃ path ∈ paths, added path q) ∨ (Node.folder root nodes).HasAt isFolder q := by
  induction paths generalizing nodes with
  | nil => simp
  | cons path paths ih =>
    rw [List.foldl_cons, ih, h, List.exists_mem_cons_iff, or_assoc]
    exact or_left_comm

end Insertion

/-! ## Sorting the levels -/

/-- The entries in order. -/
def inOrder (nodes : List Node) : List Node := sortBy (fun a b => a.compare b == .lt) nodes

theorem mem_inOrder {nodes : List Node} {node : Node} : node ∈ inOrder nodes ↔ node ∈ nodes :=
  (sortBy_perm _ nodes).mem_iff

theorem allSorted_eq_map (nodes : List Node) : allSorted nodes = nodes.map Node.sorted := by
  induction nodes with
  | nil => rw [allSorted, List.map_nil]
  | cons node rest ih => rw [allSorted, ih, List.map_cons]

theorem Node.sorted_folder (name : Text) (children : List Node) :
    (Node.folder name children).sorted = .folder name (inOrder (allSorted children)) := by
  rw [Node.sorted]
  rfl

/-- Sorting keeps every entry at its place. -/
theorem hasAt_sorted {node : Node} {isFolder : Bool} {place : List Text} :
    node.sorted.HasAt isFolder place ↔ node.HasAt isFolder place := by
  induction place generalizing node with
  | nil => cases node <;> simp [Node.sorted, Node.isFolder]
  | cons name rest ih =>
    cases node with
    | file n => rw [Node.sorted]
    | folder n children =>
      have hname : ∀ child : Node, child.sorted.name = child.name := by
        intro child
        cases child with
        | file => rw [Node.sorted]
        | folder => rw [Node.sorted_folder, Node.name, Node.name]
      rw [Node.sorted_folder, Node.hasAt_cons, Node.hasAt_cons]
      simp only [Node.children, mem_inOrder, allSorted_eq_map, List.mem_map,
        exists_exists_and_eq_and, hname, ih]

/-! ## Listings -/

/-- The entries of a listing before they are sorted. -/
def entriesOf (files emptyDirs : List Text) : List Node :=
  emptyDirs.foldl (fun nodes path => addFolder (placeOf path) nodes)
    (files.foldl (fun nodes path => addFile (placeOf path) nodes) [])

/-- What each insertion preserves holds of the entries of a listing. -/
theorem entriesOf_induction {P : List Node → Prop} {files emptyDirs : List Text} (nil : P [])
    (file : ∀ path ∈ files, ∀ nodes, P nodes → P (addFile (placeOf path) nodes))
    (folder : ∀ path ∈ emptyDirs, ∀ nodes, P nodes → P (addFolder (placeOf path) nodes)) :
    P (entriesOf files emptyDirs) := by
  have hfiles : P (files.foldl (fun nodes path => addFile (placeOf path) nodes) []) :=
    List.foldlRecOn files _ nil fun nodes h path hpath => file path hpath nodes h
  exact List.foldlRecOn emptyDirs _ hfiles fun nodes h path hpath => folder path hpath nodes h

theorem build_eq (files emptyDirs : List Text) :
    build files emptyDirs = .folder [] (inOrder (allSorted (entriesOf files emptyDirs))) :=
  Node.sorted_folder [] (entriesOf files emptyDirs)

theorem children_build (files emptyDirs : List Text) :
    (build files emptyDirs).children = inOrder (allSorted (entriesOf files emptyDirs)) := by
  rw [build_eq, Node.children]

/-- A listing has what is on the way to its files and to its empty directories. -/
theorem hasAt_build {files emptyDirs : List Text} {isFolder : Bool} {q : List Text} (hq : q ≠ []) :
    (build files emptyDirs).HasAt isFolder q ↔
      (∃ path ∈ files, IsOnWay false (placeOf path) isFolder q) ∨
        ∃ path ∈ emptyDirs, IsOnWay true (placeOf path) isFolder q := by
  have hfile : ∀ path root nodes q,
      (Node.folder root (addFile (placeOf path) nodes)).HasAt isFolder q ↔
        (placeOf path ≠ [] ∧ IsOnWay false (placeOf path) isFolder q) ∨
          (Node.folder root nodes).HasAt isFolder q := by
    intro path root nodes q
    by_cases hplace : placeOf path = []
    · simp [hplace, addFile]
    · rw [hasAt_addFile hplace, and_iff_right hplace]
  have hempty : ¬ (Node.folder [] []).HasAt isFolder q := by
    cases q with
    | nil => exact absurd rfl hq
    | cons next rest => simp [Node.hasAt_cons, Node.children]
  -- A path that names nothing has no place but the root on the way to it.
  have hnamed : ∀ path, (placeOf path ≠ [] ∧ IsOnWay false (placeOf path) isFolder q) ↔
      IsOnWay false (placeOf path) isFolder q := by
    intro path
    refine and_iff_right_of_imp fun hway hplace => hq ?_
    exact List.prefix_nil.1 (hplace ▸ hway.1)
  have hroot : build files emptyDirs = (Node.folder [] (entriesOf files emptyDirs)).sorted := rfl
  rw [hroot, hasAt_sorted, entriesOf, hasAt_foldl fun path => hasAt_addFolder (placeOf path),
    hasAt_foldl hfile, or_iff_left hempty]
  simp only [hnamed]
  exact or_comm

/-- The places of files. -/
def filePlacesOf (files : List Text) : List (List Text) := (files.map placeOf).filter (· ≠ [])

/-- The places of the directories on the way to files, and of empty directories and those on the
way to them. -/
def folderPlacesOf (files emptyDirs : List Text) : List (List Text) :=
  ((files.flatMap fun path => (placeOf path).inits.filter (· ≠ placeOf path)) ++
    emptyDirs.flatMap fun path => (placeOf path).inits).filter (· ≠ [])

theorem mem_filePlacesOf {files : List Text} {q : List Text} :
    q ∈ filePlacesOf files ↔ q ≠ [] ∧ ∃ path ∈ files, placeOf path = q := by
  simp [filePlacesOf, and_comm]

theorem mem_folderPlacesOf {files emptyDirs : List Text} {q : List Text} :
    q ∈ folderPlacesOf files emptyDirs ↔
      q ≠ [] ∧ ((∃ path ∈ files, q <+: placeOf path ∧ q ≠ placeOf path) ∨
        ∃ path ∈ emptyDirs, q <+: placeOf path) := by
  simp [folderPlacesOf, and_comm, and_or_left]

/-- The files of a listing are at the places of the given files. -/
theorem hasFile_build {files emptyDirs : List Text} {q : List Text} :
    (build files emptyDirs).HasAt false q ↔ q ∈ filePlacesOf files := by
  rw [mem_filePlacesOf]
  by_cases hq : q = []
  · subst hq
    rw [Node.hasAt_nil, build_eq]
    simp [Node.isFolder]
  · have hway : ∀ path, IsOnWay false (placeOf path) false q ↔ placeOf path = q := by
      intro path
      rw [IsOnWay, Bool.false_or, eq_comm, bne_eq_false_iff_eq]
      constructor
      · exact fun hway => hway.2.symm
      · rintro rfl
        exact ⟨List.prefix_rfl, rfl⟩
    have hdir : ∀ path, ¬ IsOnWay true (placeOf path) false q := by simp [IsOnWay]
    rw [hasAt_build hq]
    simp [hway, hdir, hq]

/-- The directories of a listing are at the places of those on the way. -/
theorem hasFolder_build {files emptyDirs : List Text} {q : List Text} (hq : q ≠ []) :
    (build files emptyDirs).HasAt true q ↔ q ∈ folderPlacesOf files emptyDirs := by
  rw [hasAt_build hq, mem_folderPlacesOf]
  simp [IsOnWay, hq]

end SourceBundle.Listing
