import SourceBundle.Proofs.Listing.Places
import SourceBundle.Proofs.Path.Order

/-!
# The files of a listing

A listing is built by insertion, in the order in which the paths come, and then sorted level by
level.  Two facts describe the files in it without that history.

* Which files there are: the places of the paths (`mem_filePlaces_build`).  Empty directories add
  none.
* In which order they come: insertion never makes two entries of one name and kind in a directory
  (`Tidy`), so sorting leaves each level strictly ascending (`ordered_sorted`), and then the files
  taken from top to bottom are strictly ascending in the order of places
  (`pairwise_filePlaces_build`).

The second needs no condition on the paths.  A directory and a file may have one name; the directory
comes first, as it does in `comparePlaces`.
-/

open SourceBundle.Path

namespace SourceBundle.Listing

mutual

/-- The places of the files in an entry, from top to bottom. -/
def Node.filePlaces : Node → List (List Text)
  | .file name => [[name]]
  | .folder name children => (allFilePlaces children).map (name :: ·)

/-- The places of the files in entries of one directory, from top to bottom. -/
def allFilePlaces : List Node → List (List Text)
  | [] => []
  | node :: rest => node.filePlaces ++ allFilePlaces rest

end

/-- The paths of the files in a listing, from top to bottom. -/
def Node.filePaths (root : Node) : List Text :=
  (allFilePlaces root.children).map (Text.join ['/'])

/-- The step that an entry is on the way to the files in it. -/
def Node.step : Node → Step
  | .file name => (true, name)
  | .folder name _ => (false, name)

theorem Node.compare_eq (a b : Node) : a.compare b = compareSteps a.step b.step := by
  cases a <;> cases b <;> rfl

instance : Std.TransCmp Node.compare := by
  have hcompare : Node.compare = fun a b => compareSteps a.step b.step := funext₂ Node.compare_eq
  rw [hcompare]
  exact transCmp_on compareSteps Node.step

@[simp] theorem allFilePlaces_nil : allFilePlaces [] = [] := by
  rw [allFilePlaces]

@[simp] theorem allFilePlaces_file (name : Text) (rest : List Node) :
    allFilePlaces (.file name :: rest) = [name] :: allFilePlaces rest := by
  rw [allFilePlaces, Node.filePlaces, List.singleton_append]

@[simp] theorem allFilePlaces_folder (name : Text) (children rest : List Node) :
    allFilePlaces (.folder name children :: rest) =
      (allFilePlaces children).map (name :: ·) ++ allFilePlaces rest := by
  rw [allFilePlaces, Node.filePlaces]

theorem mem_allFilePlaces {nodes : List Node} {q : List Text} :
    q ∈ allFilePlaces nodes ↔ ∃ node ∈ nodes, q ∈ node.filePlaces := by
  induction nodes with
  | nil => simp
  | cons node rest ih =>
    rw [allFilePlaces, List.mem_append, ih]
    simp

theorem ne_nil_of_mem_allFilePlaces {nodes : List Node} {q : List Text}
    (h : q ∈ allFilePlaces nodes) : q ≠ [] := by
  obtain ⟨node, -, hq⟩ := mem_allFilePlaces.1 h
  rintro rfl
  cases node <;> simp [Node.filePlaces] at hq

/-- The places of the files are those to which the names lead. -/
theorem mem_allFilePlaces_iff_hasAt (name : Text) {nodes : List Node} {q : List Text} :
    q ∈ allFilePlaces nodes ↔ (Node.folder name nodes).HasAt false q := by
  induction q generalizing name nodes with
  | nil =>
    have hroot : ¬ [] ∈ allFilePlaces nodes := fun h => ne_nil_of_mem_allFilePlaces h rfl
    rw [Node.hasAt_nil]
    simp [hroot, Node.isFolder]
  | cons next rest ih =>
    rw [mem_allFilePlaces, Node.hasAt_cons]
    refine exists_congr fun node => and_congr_right fun _ => ?_
    cases node with
    | file n => simp [Node.filePlaces, Node.name, eq_comm]
    | folder n children =>
      rw [Node.filePlaces, List.mem_map, Node.name, ← ih n]
      constructor
      · rintro ⟨p, hp, hplace⟩
        obtain ⟨rfl, rfl⟩ := List.cons.inj hplace
        exact ⟨rfl, hp⟩
      · rintro ⟨rfl, hrest⟩
        exact ⟨rest, hrest, rfl⟩

/-- The files of a listing are at the places of the given paths. -/
theorem mem_filePlaces_build {files emptyDirs : List Text} {q : List Text} :
    q ∈ allFilePlaces (build files emptyDirs).children ↔
      q ≠ [] ∧ ∃ path ∈ files, placeOf path = q := by
  rw [build_eq, Node.children, mem_allFilePlaces_iff_hasAt [], ← build_eq, hasFile_build,
    mem_filePlacesOf]

/-! ## Entries of one name and kind -/

/-- In no directory are two entries of one name and kind. -/
inductive Tidy : List Node → Prop
  | nil : Tidy []
  | file {name : Text} {rest : List Node} :
      (true, name) ∉ rest.map Node.step → Tidy rest → Tidy (.file name :: rest)
  | folder {name : Text} {children rest : List Node} :
      (false, name) ∉ rest.map Node.step → Tidy children → Tidy rest →
        Tidy (.folder name children :: rest)

@[simp] theorem step_file (name : Text) : (Node.file name).step = (true, name) := rfl

@[simp] theorem step_folder (name : Text) (children : List Node) :
    (Node.folder name children).step = (false, name) := rfl

theorem mem_steps_inFolder {name : Text} {change : List Node → List Node} {nodes : List Node}
    {step : Step} :
    step ∈ (inFolder name change nodes).map Node.step ↔
      step = (false, name) ∨ step ∈ nodes.map Node.step := by
  induction nodes with
  | nil => simp [inFolder]
  | cons node rest ih =>
    cases node with
    | file n =>
      rw [inFolder, List.map_cons, List.mem_cons, ih, List.map_cons, List.mem_cons]
      exact or_left_comm
    | folder n children =>
      rw [inFolder]
      split
      · rename_i same
        simp [same]
      · rw [List.map_cons, List.mem_cons, ih, List.map_cons, List.mem_cons]
        exact or_left_comm

theorem mem_steps_withFile {name : Text} {nodes : List Node} {step : Step} :
    step ∈ (withFile name nodes).map Node.step ↔
      step = (true, name) ∨ step ∈ nodes.map Node.step := by
  simp [mem_withFile, or_and_right, exists_or, eq_comm]

theorem tidy_inFolder {change : List Node → List Node}
    (h : ∀ nodes, Tidy nodes → Tidy (change nodes)) (name : Text) {nodes : List Node}
    (tidy : Tidy nodes) : Tidy (inFolder name change nodes) := by
  induction tidy with
  | nil =>
    rw [inFolder]
    exact .folder List.not_mem_nil (h [] .nil) .nil
  | @file n rest new _ ih =>
    rw [inFolder]
    refine .file ?_ ih
    rw [mem_steps_inFolder]
    simpa using new
  | @folder n children rest new tidyChildren tidyRest _ ih =>
    rw [inFolder]
    split
    · exact .folder new (h children tidyChildren) tidyRest
    · rename_i other
      refine .folder ?_ tidyChildren ih
      rw [mem_steps_inFolder, not_or]
      exact ⟨fun same => other (Prod.ext_iff.1 same).2, new⟩

theorem tidy_withFile (name : Text) {nodes : List Node} (tidy : Tidy nodes) :
    Tidy (withFile name nodes) := by
  induction tidy with
  | nil =>
    rw [withFile]
    exact .file List.not_mem_nil .nil
  | @file n rest new tidyRest ih =>
    rw [withFile]
    split
    · exact .file new tidyRest
    · rename_i other
      refine .file ?_ ih
      rw [mem_steps_withFile, not_or]
      exact ⟨fun same => other (Prod.ext_iff.1 same).2, new⟩
  | @folder n children rest new tidyChildren _ _ ih =>
    rw [withFile]
    refine .folder ?_ tidyChildren ih
    rw [mem_steps_withFile]
    simpa using new

theorem tidy_addFile (place : List Text) {nodes : List Node} (tidy : Tidy nodes) :
    Tidy (addFile place nodes) := by
  induction place generalizing nodes with
  | nil => exact tidy
  | cons name rest ih =>
    cases rest with
    | nil => exact tidy_withFile name tidy
    | cons next rest => exact tidy_inFolder (fun _ => ih) name tidy

theorem tidy_addFolder (place : List Text) {nodes : List Node} (tidy : Tidy nodes) :
    Tidy (addFolder place nodes) := by
  induction place generalizing nodes with
  | nil => exact tidy
  | cons name rest ih => exact tidy_inFolder (fun _ => ih) name tidy

/-- Insertion makes no two entries of one name and kind. -/
theorem tidy_entriesOf (files emptyDirs : List Text) : Tidy (entriesOf files emptyDirs) :=
  entriesOf_induction .nil (fun path _ _ => tidy_addFile (placeOf path))
    fun path _ _ => tidy_addFolder (placeOf path)

/-! ## Order -/

/-- Every directory lists its entries in strictly ascending order. -/
inductive Ordered : List Node → Prop
  | nil : Ordered []
  | file {name : Text} {rest : List Node} :
      (∀ other ∈ rest, compareSteps (true, name) other.step = .lt) → Ordered rest →
        Ordered (.file name :: rest)
  | folder {name : Text} {children rest : List Node} :
      (∀ other ∈ rest, compareSteps (false, name) other.step = .lt) → Ordered children →
        Ordered rest → Ordered (.folder name children :: rest)

theorem ordered_of_pairwise {nodes : List Node}
    (h : nodes.Pairwise fun a b => compareSteps a.step b.step = .lt)
    (below : ∀ name children, .folder name children ∈ nodes → Ordered children) :
    Ordered nodes := by
  induction nodes with
  | nil => exact .nil
  | cons node rest ih =>
    obtain ⟨hnode, hrest⟩ := List.pairwise_cons.mp h
    have hordered := ih hrest fun name children hmem =>
      below name children (List.mem_cons_of_mem node hmem)
    cases node with
    | file name => exact .file hnode hordered
    | folder name children => exact .folder hnode (below name children List.mem_cons_self) hordered

theorem Tidy.nodup_steps {nodes : List Node} (h : Tidy nodes) : (nodes.map Node.step).Nodup := by
  induction h with
  | nil => exact .nil
  | file new _ ih => exact List.nodup_cons.mpr ⟨new, ih⟩
  | folder new _ _ _ ih => exact List.nodup_cons.mpr ⟨new, ih⟩

theorem step_sorted (node : Node) : node.sorted.step = node.step := by
  cases node with
  | file name => rw [Node.sorted]
  | folder name children => rw [Node.sorted, step_folder, step_folder]

/-- Entries with different steps are strictly ascending once they are in order. -/
theorem pairwise_inOrder {nodes : List Node} (h : (nodes.map Node.step).Nodup) :
    (inOrder nodes).Pairwise fun a b => compareSteps a.step b.step = .lt := by
  have hle : (inOrder nodes).Pairwise fun a b => (a.compare b).isLE :=
    pairwise_sortBy_isLE Node.compare nodes
  have hne : (inOrder nodes).Pairwise fun a b => a.step ≠ b.step := by
    have hnodup : ((inOrder nodes).map Node.step).Nodup :=
      ((sortBy_perm _ nodes).map Node.step).nodup_iff.mpr h
    exact List.pairwise_map.mp hnodup
  refine (hle.and hne).imp ?_
  rintro a b ⟨hab, hstep⟩
  rw [Node.compare_eq] at hab
  exact lt_of_isLE_of_ne hab hstep

theorem Tidy.children {nodes children : List Node} {name : Text} (h : Tidy nodes)
    (hmem : .folder name children ∈ nodes) : Tidy children := by
  induction h with
  | nil => cases hmem
  | file _ _ ih => exact ih (List.mem_of_ne_of_mem Node.noConfusion hmem)
  | folder _ tidyChildren _ _ ihRest =>
    rcases List.mem_cons.mp hmem with same | hmem
    · obtain ⟨-, rfl⟩ := Node.folder.inj same
      exact tidyChildren
    · exact ihRest hmem

/-- Sorting all levels of tidy entries puts them in order. -/
theorem ordered_sorted {nodes : List Node} (tidy : Tidy nodes) :
    Ordered (inOrder (allSorted nodes)) := by
  induction nodes using levels_induction with
  | level nodes ih =>
    have hsteps : (allSorted nodes).map Node.step = nodes.map Node.step := by
      rw [allSorted_eq_map, List.map_map]
      exact List.map_congr_left fun node _ => step_sorted node
    refine ordered_of_pairwise (pairwise_inOrder (hsteps ▸ tidy.nodup_steps)) ?_
    intro name children hmem
    rw [mem_inOrder, allSorted_eq_map, List.mem_map] at hmem
    obtain ⟨node, hnode, hsorted⟩ := hmem
    cases node with
    | file n => simp [Node.sorted] at hsorted
    | folder n below =>
      rw [Node.sorted_folder, Node.folder.injEq] at hsorted
      obtain ⟨rfl, rfl⟩ := hsorted
      exact ih n below hnode (tidy.children hnode)

/-- The first step to a file in one of the entries is the step of that entry. -/
theorem exists_step_of_mem {nodes : List Node} {q : List Text} (h : q ∈ allFilePlaces nodes) :
    ∃ node ∈ nodes, ∃ name rest, q = name :: rest ∧ node.step = (rest.isEmpty, name) := by
  obtain ⟨node, hnode, hq⟩ := mem_allFilePlaces.1 h
  refine ⟨node, hnode, ?_⟩
  cases node with
  | file name =>
    rw [Node.filePlaces, List.mem_singleton] at hq
    exact ⟨name, [], hq, rfl⟩
  | folder name children =>
    rw [Node.filePlaces, List.mem_map] at hq
    obtain ⟨rest, hrest, rfl⟩ := hq
    refine ⟨name, rest, rfl, ?_⟩
    rw [step_folder, List.isEmpty_eq_false_iff.2 (ne_nil_of_mem_allFilePlaces hrest)]

/-- A file whose first step comes before the steps of all entries comes before the files in
them. -/
theorem comparePlaces_of_step_lt {nodes : List Node} {name : Text} {rest q : List Text}
    (h : ∀ other ∈ nodes, compareSteps (rest.isEmpty, name) other.step = .lt)
    (hq : q ∈ allFilePlaces nodes) : comparePlaces (name :: rest) q = .lt := by
  obtain ⟨other, hother, name', rest', rfl, hstep⟩ := exists_step_of_mem hq
  rw [comparePlaces_cons, ← hstep, h other hother]
  rfl

/-- Below one directory, places are compared from there on. -/
theorem comparePlaces_cons_self (name : Text) {p q : List Text} (hp : p ≠ []) (hq : q ≠ []) :
    comparePlaces (name :: p) (name :: q) = comparePlaces p q := by
  have hself : compareSteps (false, name) (false, name) = .eq := Std.ReflCmp.compare_self
  rw [comparePlaces_cons, List.isEmpty_eq_false_iff.2 hp, List.isEmpty_eq_false_iff.2 hq, hself]
  rfl

/-- From top to bottom the files of ordered entries are strictly ascending. -/
theorem Ordered.pairwise_allFilePlaces {nodes : List Node} (h : Ordered nodes) :
    (allFilePlaces nodes).Pairwise fun p q => comparePlaces p q = .lt := by
  induction h with
  | nil => exact .nil
  | @file name rest first _ ih =>
    rw [allFilePlaces_file]
    exact List.pairwise_cons.mpr ⟨fun q hq => comparePlaces_of_step_lt first hq, ih⟩
  | @folder name children rest first _ _ ihChildren ihRest =>
    rw [allFilePlaces_folder, List.pairwise_append]
    refine ⟨?_, ihRest, ?_⟩
    · rw [List.pairwise_map]
      refine ihChildren.imp_of_mem fun {p q} hp hq hpq => ?_
      rw [comparePlaces_cons_self name (ne_nil_of_mem_allFilePlaces hp)
        (ne_nil_of_mem_allFilePlaces hq)]
      exact hpq
    · intro p hp q hq
      obtain ⟨below, hbelow, rfl⟩ := List.mem_map.mp hp
      have hne : below.isEmpty = false :=
        List.isEmpty_eq_false_iff.2 (ne_nil_of_mem_allFilePlaces hbelow)
      exact comparePlaces_of_step_lt (hne ▸ first) hq

/-- From top to bottom the files of a listing are strictly ascending. -/
theorem pairwise_filePlaces_build (files emptyDirs : List Text) :
    (allFilePlaces (build files emptyDirs).children).Pairwise fun p q =>
      comparePlaces p q = .lt := by
  rw [children_build]
  exact (ordered_sorted (tidy_entriesOf files emptyDirs)).pairwise_allFilePlaces

/-! ## Listings and sorted paths -/

/-- A path made of names that a listing takes as they are: no backslash, no empty name and no
dot. -/
def IsPlain (path : Text) : Prop :=
  '\\' ∉ path ∧ ∀ name ∈ components path, name ≠ [] ∧ name ≠ ['.']

theorem placeOf_eq_components {path : Text} (h : IsPlain path) :
    placeOf path = components path := by
  have hmap : path.map (fun c => if c = '\\' then '/' else c) = path := by
    conv_rhs => rw [← List.map_id path]
    refine List.map_congr_left fun c hc => ?_
    rw [if_neg, id]
    rintro rfl
    exact h.1 hc
  rw [placeOf, hmap, List.filter_eq_self]
  intro name hname
  obtain ⟨hne, hdot⟩ := h.2 name hname
  simp [hne, hdot]

/-- The files of a listing of plain paths are at the names of the paths. -/
theorem mem_filePlaces_build_of_plain {paths emptyDirs : List Text}
    (hplain : ∀ path ∈ paths, IsPlain path) {q : List Text} :
    q ∈ allFilePlaces (build paths emptyDirs).children ↔
      ∃ path ∈ paths, components path = q := by
  rw [mem_filePlaces_build]
  constructor
  · rintro ⟨-, path, hpath, rfl⟩
    exact ⟨path, hpath, (placeOf_eq_components (hplain path hpath)).symm⟩
  · rintro ⟨path, hpath, rfl⟩
    exact ⟨Text.pieces_ne_nil '/' path, path, hpath, placeOf_eq_components (hplain path hpath)⟩

theorem join_components (path : Text) : Text.join ['/'] (components path) = path :=
  Text.join_pieces '/' path

/-- A listing shows files in the order in which their paths are sorted. -/
theorem filePaths_build_eq_sort {paths : List Text} (hplain : ∀ path ∈ paths, IsPlain path)
    (hapart : Apart paths) (emptyDirs : List Text) :
    (build paths emptyDirs).filePaths = sort paths := by
  apply eq_sort_of_pairwise hapart
  · rw [Node.filePaths, List.pairwise_map]
    refine (pairwise_filePlaces_build paths emptyDirs).imp_of_mem fun {p q} hp hq hpq => ?_
    obtain ⟨path, -, rfl⟩ := (mem_filePlaces_build_of_plain hplain).1 hp
    obtain ⟨path', -, rfl⟩ := (mem_filePlaces_build_of_plain hplain).1 hq
    rwa [join_components, join_components, compareAsFiles]
  · intro path
    rw [Node.filePaths, List.mem_map]
    constructor
    · rintro ⟨q, hq, rfl⟩
      obtain ⟨path, hpath, rfl⟩ := (mem_filePlaces_build_of_plain hplain).1 hq
      rwa [join_components]
    · intro hpath
      exact ⟨components path, (mem_filePlaces_build_of_plain hplain).2 ⟨path, hpath, rfl⟩,
        join_components path⟩

end SourceBundle.Listing
