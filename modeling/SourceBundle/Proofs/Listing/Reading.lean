import SourceBundle.Proofs.Listing.Files
import SourceBundle.Proofs.Text.Leads
import SourceBundle.Proofs.Text.Pieces

/-!
# Reading drawn listings

A drawn listing can be read again.  In front of the branch of an entry stands one trunk for each
directory above it, and four characters are enough to tell trunks from branches.  A row therefore
says by itself how deep its entry is, and what follows the branch is the label, whatever it looks
like (`readRow?_row`).

Depths are enough to restore the nesting.  Rows are taken from the last to the first; the entries
read so far that are deeper than a new one, up to the first that is not, are its children
(`hang?_children`).

So the drawing of any entries whose names hold no slash and no line feed is read as these entries
(`Drawable.readRows?_drawAll`).  The names of a listing are pieces of paths between slashes, which
leaves only line feeds to be excluded.
-/

namespace SourceBundle.Listing

/-! ## The reader -/

/-- The depth and the label of the entry on a row. -/
def readRow? : Text → Option (Nat × Text)
  | a :: b :: c :: d :: row =>
    if [a, b, c, d] = trunk true ∨ [a, b, c, d] = trunk false then
      (readRow? row).map fun line => (line.1 + 1, line.2)
    else if [a, b, c, d] = branch true ∨ [a, b, c, d] = branch false then some (0, row)
    else none
  | _ => none

/-- The entry with a label and what is below it: a slash at the end marks a directory, and nothing
is below a file. -/
def nodeOf? (label : Text) (children : List Node) : Option Node :=
  match Text.before? ['/'] label, children with
  | some name, children => some (.folder name children)
  | none, [] => some (.file label)
  | none, _ :: _ => none

/-- Puts an entry in front of entries with their depths, of which it takes in the deeper ones right
behind it. -/
def hang? (depth : Nat) (label : Text) (entries : List (Nat × Node)) :
    Option (List (Nat × Node)) :=
  let isDeeper := fun entry : Nat × Node => decide (depth < entry.1)
  (nodeOf? label ((entries.takeWhile isDeeper).map Prod.snd)).map fun node =>
    (depth, node) :: entries.dropWhile isDeeper

/-- The entries on rows of which the last is empty, each with its depth. -/
def readRows? : List Text → Option (List (Nat × Node))
  | [] => none
  | [last] => if last.isEmpty then some [] else none
  | row :: rest =>
    (readRow? row).bind fun line => (readRows? rest).bind fun entries => hang? line.1 line.2 entries

/-- Reads a drawn listing. -/
def read? (t : Text) : Option Node :=
  (readRows? (Text.rows t)).map fun entries => .folder [] (entries.map Prod.snd)

/-! ## Rows -/

/-- What stands before the branches of entries: one trunk for each directory above them, which is
the last entry of its own directory or not. -/
def leadBelow (above : List Bool) : Text := above.flatMap trunk

theorem leadBelow_concat (above : List Bool) (isLast : Bool) :
    leadBelow (above ++ [isLast]) = leadBelow above ++ trunk isLast := by
  simp [leadBelow]

theorem readRow?_trunk (isLast : Bool) (row : Text) :
    readRow? (trunk isLast ++ row) = (readRow? row).map fun line => (line.1 + 1, line.2) := by
  cases isLast <;> rfl

theorem readRow?_branch (isLast : Bool) (label : Text) :
    readRow? (branch isLast ++ label) = some (0, label) := by
  cases isLast <;> rfl

/-- A row tells the depth and the label of its entry. -/
theorem readRow?_row (above : List Bool) (isLast : Bool) (label : Text) :
    readRow? (leadBelow above ++ branch isLast ++ label) = some (above.length, label) := by
  induction above with
  | nil => exact readRow?_branch isLast label
  | cons first above ih =>
    have hlead : leadBelow (first :: above) ++ branch isLast ++ label =
        trunk first ++ (leadBelow above ++ branch isLast ++ label) := by
      simp [leadBelow]
    rw [hlead, readRow?_trunk, ih, Option.map_some, List.length_cons]

theorem nodeOf?_file {name : Text} (h : '/' ∉ name) : nodeOf? name [] = some (.file name) := by
  have hnone : Text.before? ['/'] name = none := by
    rw [Option.eq_none_iff_forall_ne_some]
    intro lead hlead
    rw [Text.before?_eq_some_iff] at hlead
    exact h (by simp [hlead])
  simp only [nodeOf?, hnone]

theorem nodeOf?_folder (name : Text) (children : List Node) :
    nodeOf? (name ++ ['/']) children = some (.folder name children) := by
  simp only [nodeOf?, Text.before?_append]

/-! ## Nesting -/

/-- The first of the entries, if there is one, is at most this deep. -/
def StartsAt (depth : Nat) (entries : List (Nat × Node)) : Prop :=
  ∀ entry ∈ entries.head?, entry.1 ≤ depth

theorem StartsAt.succ {depth : Nat} {entries : List (Nat × Node)} (h : StartsAt depth entries) :
    StartsAt (depth + 1) entries :=
  fun entry hentry => Nat.le_succ_of_le (h entry hentry)

theorem StartsAt.append_map {depth : Nat} {entries : List (Nat × Node)} (h : StartsAt depth entries)
    (nodes : List Node) : StartsAt depth (nodes.map (depth, ·) ++ entries) := by
  cases nodes with
  | nil => exact h
  | cons node nodes =>
    rintro entry ⟨⟩
    exact Nat.le_refl depth

/-- An entry takes in the entries one level deeper that follow it, and no more. -/
theorem hang?_children {depth : Nat} {label : Text} {entries : List (Nat × Node)}
    (h : StartsAt depth entries) (children : List Node) :
    hang? depth label (children.map (depth + 1, ·) ++ entries) =
      (nodeOf? label children).map fun node => (depth, node) :: entries := by
  have hdeeper : ∀ entry ∈ children.map (depth + 1, ·), decide (depth < entry.1) = true := by
    intro entry hentry
    obtain ⟨child, -, rfl⟩ := List.mem_map.mp hentry
    exact decide_eq_true (Nat.lt_succ_self depth)
  have hstop : entries.takeWhile (fun entry => decide (depth < entry.1)) = [] ∧
      entries.dropWhile (fun entry => decide (depth < entry.1)) = entries := by
    cases entries with
    | nil => exact ⟨rfl, rfl⟩
    | cons entry entries =>
      have hentry : ¬ depth < entry.1 := Nat.not_lt.mpr (h entry rfl)
      simp [hentry]
  simp only [hang?, List.takeWhile_append_of_pos hdeeper, List.dropWhile_append_of_pos hdeeper,
    hstop, List.append_nil, List.map_map]
  simp [Function.comp_def]

/-- An entry with none deeper behind it takes in none. -/
theorem hang?_leaf {depth : Nat} {label : Text} {entries : List (Nat × Node)}
    (h : StartsAt depth entries) :
    hang? depth label entries = (nodeOf? label []).map fun node => (depth, node) :: entries :=
  hang?_children h []

/-! ## Drawings -/

/-- The names of all entries and of the entries below them are as `p` says. -/
inductive AllNamed (p : Text → Prop) : List Node → Prop
  | nil : AllNamed p []
  | file {name : Text} {rest : List Node} :
      p name → AllNamed p rest → AllNamed p (.file name :: rest)
  | folder {name : Text} {children rest : List Node} :
      p name → AllNamed p children → AllNamed p rest → AllNamed p (.folder name children :: rest)

/-- A name that a drawing shows as it is: without a slash and on one row. -/
def IsLabel (name : Text) : Prop := '/' ∉ name ∧ '\n' ∉ name

theorem newline_not_mem_leadBelow (above : List Bool) : '\n' ∉ leadBelow above := by
  rw [leadBelow, List.mem_flatMap]
  rintro ⟨isLast, -, h⟩
  cases isLast <;> exact absurd h (by decide)

/-- The first row of a drawing is read on its own. -/
theorem readRows?_row (above : List Bool) (isLast : Bool) {label : Text} (h : '\n' ∉ label)
    (below : Text) :
    readRows? (Text.rows (leadBelow above ++ branch isLast ++ label ++ '\n' :: below)) =
      (readRows? (Text.rows below)).bind fun entries => hang? above.length label entries := by
  have hrow : '\n' ∉ leadBelow above ++ branch isLast ++ label := by
    rw [List.mem_append, List.mem_append, not_or, not_or]
    refine ⟨⟨newline_not_mem_leadBelow above, ?_⟩, h⟩
    cases isLast <;> decide
  obtain ⟨next, rest, hbelow⟩ := Text.exists_pieces_eq_cons '\n' below
  rw [Text.rows, Text.pieces_append_cons hrow, Text.rows, hbelow, readRows?, readRow?_row,
    Option.bind_some]
  simp

/-- Entries are read from their drawing, whatever less deep rows follow. -/
theorem AllNamed.readRows?_drawAll {nodes : List Node} (h : AllNamed IsLabel nodes)
    (above : List Bool) {below : Text} {entries : List (Nat × Node)}
    (hbelow : readRows? (Text.rows below) = some entries)
    (hstart : StartsAt above.length entries) :
    readRows? (Text.rows (drawAll (leadBelow above) nodes ++ below)) =
      some (nodes.map (above.length, ·) ++ entries) := by
  induction h generalizing above below entries with
  | nil => simpa [drawAll] using hbelow
  | @file name rest hname _ ih =>
    have hrest := ih above hbelow hstart
    have hdraw : drawAll (leadBelow above) (.file name :: rest) ++ below =
        leadBelow above ++ branch rest.isEmpty ++ name ++
          '\n' :: (drawAll (leadBelow above) rest ++ below) := by
      simp [drawAll, Node.drawUnder]
    rw [hdraw, readRows?_row above _ hname.2, hrest, Option.bind_some,
      hang?_leaf (hstart.append_map rest), nodeOf?_file hname.1]
    rfl
  | @folder name children rest hname _ _ ihChildren ihRest =>
    have hrest := ihRest above hbelow hstart
    have hlabel : '\n' ∉ name ++ ['/'] := by simpa using hname.2
    have hlength : (above ++ [rest.isEmpty]).length = above.length + 1 := by simp
    have hchildren := ihChildren (above ++ [rest.isEmpty]) hrest
      (hlength ▸ (hstart.append_map rest).succ)
    have hdraw : drawAll (leadBelow above) (.folder name children :: rest) ++ below =
        leadBelow above ++ branch rest.isEmpty ++ (name ++ ['/']) ++
          '\n' :: (drawAll (leadBelow (above ++ [rest.isEmpty])) children ++
            (drawAll (leadBelow above) rest ++ below)) := by
      simp [drawAll, Node.drawUnder, leadBelow_concat]
    rw [hdraw, readRows?_row above _ hlabel, hchildren, Option.bind_some, hlength,
      hang?_children (hstart.append_map rest), nodeOf?_folder]
    rfl

/-- Entries with proper names are read from their drawing. -/
theorem read?_draw {nodes : List Node} (h : AllNamed IsLabel nodes) :
    read? (Node.folder [] nodes).draw = some (.folder [] nodes) := by
  have hread : readRows? (Text.rows (drawAll (leadBelow []) nodes ++ [])) =
      some (nodes.map (0, ·) ++ []) := h.readRows?_drawAll [] rfl (by rintro entry ⟨⟩)
  rw [List.append_nil, List.append_nil] at hread
  have hdraw : (Node.folder [] nodes).draw = drawAll (leadBelow []) nodes := rfl
  rw [read?, hdraw, hread, Option.map_some, List.map_map]
  simp [Function.comp_def]

/-! ## Names of a listing -/

section Names

variable {p : Text → Prop} {nodes : List Node}

theorem AllNamed.inFolder {change : List Node → List Node}
    (hchange : ∀ nodes, AllNamed p nodes → AllNamed p (change nodes)) {name : Text} (hname : p name)
    (h : AllNamed p nodes) : AllNamed p (inFolder name change nodes) := by
  induction h with
  | nil => exact .folder hname (hchange [] .nil) .nil
  | file hn _ ih => exact .file hn ih
  | folder hn hchildren hrest _ ih =>
    rw [Listing.inFolder]
    split
    · exact .folder hn (hchange _ hchildren) hrest
    · exact .folder hn hchildren ih

theorem AllNamed.withFile {name : Text} (hname : p name) (h : AllNamed p nodes) :
    AllNamed p (withFile name nodes) := by
  induction h with
  | nil => exact .file hname .nil
  | file hn hrest ih =>
    rw [Listing.withFile]
    split
    · exact .file hn hrest
    · exact .file hn ih
  | folder hn hchildren _ _ ih => exact .folder hn hchildren ih

theorem AllNamed.addFile {place : List Text} (hplace : ∀ name ∈ place, p name)
    (h : AllNamed p nodes) : AllNamed p (addFile place nodes) := by
  induction place generalizing nodes with
  | nil => exact h
  | cons name rest ih =>
    obtain ⟨hname, hrest⟩ := List.forall_mem_cons.mp hplace
    cases rest with
    | nil => exact h.withFile hname
    | cons next rest => exact h.inFolder (fun _ => ih hrest) hname

theorem AllNamed.addFolder {place : List Text} (hplace : ∀ name ∈ place, p name)
    (h : AllNamed p nodes) : AllNamed p (addFolder place nodes) := by
  induction place generalizing nodes with
  | nil => exact h
  | cons name rest ih =>
    obtain ⟨hname, hrest⟩ := List.forall_mem_cons.mp hplace
    exact h.inFolder (fun _ => ih hrest) hname

/-- The names of the entries come from the places of the paths. -/
theorem allNamed_entriesOf {files emptyDirs : List Text}
    (h : ∀ path ∈ files ++ emptyDirs, ∀ name ∈ placeOf path, p name) :
    AllNamed p (entriesOf files emptyDirs) := by
  obtain ⟨hfiles, hdirs⟩ := List.forall_mem_append.mp h
  exact entriesOf_induction .nil (fun path hpath _ hnodes => hnodes.addFile (hfiles path hpath))
    fun path hpath _ hnodes => hnodes.addFolder (hdirs path hpath)

theorem allNamed_iff : AllNamed p nodes ↔ ∀ node ∈ nodes, AllNamed p [node] := by
  constructor
  · intro h
    induction h with
    | nil => exact fun node hnode => absurd hnode List.not_mem_nil
    | file hn _ ih => exact List.forall_mem_cons.mpr ⟨.file hn .nil, ih⟩
    | folder hn hchildren _ _ ih => exact List.forall_mem_cons.mpr ⟨.folder hn hchildren .nil, ih⟩
  · intro h
    induction nodes with
    | nil => exact .nil
    | cons node rest ih =>
      obtain ⟨hnode, hrest⟩ := List.forall_mem_cons.mp h
      cases hnode with
      | file hn _ => exact .file hn (ih hrest)
      | folder hn hchildren _ => exact .folder hn hchildren (ih hrest)

theorem AllNamed.inOrder (h : AllNamed p nodes) : AllNamed p (inOrder nodes) := by
  rw [allNamed_iff] at h ⊢
  exact fun node hnode => h node (mem_inOrder.mp hnode)

theorem AllNamed.allSorted (h : AllNamed p nodes) : AllNamed p (allSorted nodes) := by
  induction h with
  | nil => exact .nil
  | file hn _ ih =>
    rw [Listing.allSorted, Node.sorted]
    exact .file hn ih
  | folder hn _ _ ihChildren ihRest =>
    rw [Listing.allSorted, Node.sorted]
    exact .folder hn ihChildren.inOrder ihRest

end Names

/-- The names on the way to a path are labels when the path is on one row. -/
theorem isLabel_of_mem_placeOf {path name : Text} (h : '\n' ∉ path) (hname : name ∈ placeOf path) :
    IsLabel name := by
  have hpiece := (List.mem_filter.mp hname).1
  refine ⟨Text.not_mem_of_mem_pieces hpiece, fun hmem => ?_⟩
  have hpath := (Text.infix_of_mem_pieces hpiece).subset hmem
  obtain ⟨c, hc, hslash⟩ := List.mem_map.mp hpath
  split at hslash
  · cases hslash
  · exact h (hslash ▸ hc)

/-- A drawn listing is read as it was built.  Paths without line feeds that are drawn alike
therefore make the same listing. -/
theorem read?_ofPaths {files emptyDirs : List Text} (h : ∀ path ∈ files ++ emptyDirs, '\n' ∉ path) :
    read? (ofPaths files emptyDirs) = some (build files emptyDirs) ∧
      ∀ files' emptyDirs' : List Text, (∀ path ∈ files' ++ emptyDirs', '\n' ∉ path) →
        ofPaths files' emptyDirs' = ofPaths files emptyDirs →
          build files' emptyDirs' = build files emptyDirs := by
  have hread : ∀ files emptyDirs : List Text, (∀ path ∈ files ++ emptyDirs, '\n' ∉ path) →
      read? (ofPaths files emptyDirs) = some (build files emptyDirs) := by
    intro files emptyDirs h
    have hnamed : AllNamed IsLabel (entriesOf files emptyDirs) :=
      allNamed_entriesOf fun path hpath name => isLabel_of_mem_placeOf (h path hpath)
    have hbuild : build files emptyDirs =
        .folder [] (inOrder (allSorted (entriesOf files emptyDirs))) := by
      rw [build, Node.sorted]
      rfl
    rw [ofPaths, hbuild]
    exact read?_draw hnamed.allSorted.inOrder
  refine ⟨hread files emptyDirs h, fun files' emptyDirs' h' same => ?_⟩
  have hread' := hread files' emptyDirs' h'
  rw [same, hread files emptyDirs h] at hread'
  exact (Option.some.inj hread').symm

/-! ## A listing with misleading names -/

/-- Paths with names that look like parts of a drawing, and a file and a directory of one name. -/
def misleadingFiles : List Text :=
  ["└── a".toList, "b/│   └── c".toList, "b/    ".toList, "b\\├── d/e".toList, "f".toList]

/-- Empty directories, of which one lies where a file has its name. -/
def misleadingDirs : List Text := ["f".toList, "b/g/.".toList]

theorem read?_ofPaths_misleading :
    (∀ path ∈ misleadingFiles ++ misleadingDirs, '\n' ∉ path) ∧
      ofPaths misleadingFiles misleadingDirs =
        ("├── b/\n│   ├── g/\n│   ├── ├── d/\n│   │   └── e\n│   ├──     \n" ++
          "│   └── │   └── c\n├── f/\n├── f\n└── └── a\n").toList ∧
      read? (ofPaths misleadingFiles misleadingDirs) =
        some (build misleadingFiles misleadingDirs) := by
  have hpaths : ∀ path ∈ misleadingFiles ++ misleadingDirs, '\n' ∉ path := by decide
  exact ⟨hpaths, by decide +kernel, (read?_ofPaths hpaths).1⟩

end SourceBundle.Listing
