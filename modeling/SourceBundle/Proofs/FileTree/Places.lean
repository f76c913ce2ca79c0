import SourceBundle.FileTree.Lookup
import SourceBundle.Proofs.Path.Order

/-!
# Places in a file tree

The entry at a place is found step by step: a place that goes on below another is looked up from the
entry there (`Folder.at?_append`).  Below a file or a link there is nothing, so the places of files
do not continue each other.

In a tree as file systems hold them (`Folder.isProper`) the names of a directory are different and
have no slash.  A path then tells the names that it is made of, and the paths of files are `Apart`.
A path to a directory may go over links; what it leads to is a directory of the tree all the same.
-/

namespace SourceBundle

/-! ## Looking up places -/

/-- The entry at a place below an entry. -/
def Entry.at? (e : Entry) (place : Place) : Option Entry :=
  if place = [] then some e else Folder.at? e.children place

@[simp] theorem Entry.at?_nil (e : Entry) : e.at? [] = some e := rfl

@[simp] theorem Entry.at?_folder (entries : Folder) (place : Place) :
    (Entry.folder entries).at? place = Folder.at? entries place := by
  cases place with
  | nil => simp [Entry.at?, Folder.at?]
  | cons name rest => simp [Entry.at?, Entry.children]

theorem Folder.at?_cons (folder : Folder) (name : Text) (rest : Place) :
    folder.at? (name :: rest) = (folder.find? name).bind fun e => e.at? rest := by
  cases hfind : folder.find? name with
  | none => simp [Folder.at?, hfind]
  | some e => cases rest <;> simp [Folder.at?, Entry.at?, hfind]

theorem Folder.at?_nil_cons (name : Text) (rest : Place) : Folder.at? [] (name :: rest) = none := by
  rw [Folder.at?_cons, Folder.find?, Option.bind_none]

theorem Entry.at?_cons_of_not_isFolder {e : Entry} (h : e.isFolder = false) (name : Text)
    (rest : Place) : e.at? (name :: rest) = none := by
  cases e with
  | folder entries => simp [Entry.isFolder] at h
  | file content => exact Folder.at?_nil_cons name rest
  | link target => exact Folder.at?_nil_cons name rest

/-- A place is looked up from every place on the way to it. -/
theorem Folder.at?_append (folder : Folder) (place below : Place) :
    folder.at? (place ++ below) = (folder.at? place).bind fun e => e.at? below := by
  induction place generalizing folder with
  | nil => simp [Folder.at?]
  | cons name rest ih =>
    rw [List.cons_append, Folder.at?_cons, Folder.at?_cons]
    cases folder.find? name with
    | none => rfl
    | some e =>
      rw [Option.bind_some, Option.bind_some]
      cases he : e.isFolder with
      | true =>
        cases e with
        | folder entries => rw [Entry.at?_folder, Entry.at?_folder, ih]
        | file content => cases he
        | link target => cases he
      | false =>
        cases rest with
        | nil => simp
        | cons next rest =>
          rw [List.cons_append, Entry.at?_cons_of_not_isFolder he,
            Entry.at?_cons_of_not_isFolder he, Option.bind_none]

/-- There is no entry below a file. -/
theorem Folder.eq_of_isPrefix {folder : Folder} {p q : Place} {content : ByteArray} {e : Entry}
    (hp : folder.at? p = some (.file content)) (hq : folder.at? q = some e) (hpq : p <+: q) :
    p = q := by
  obtain ⟨below, rfl⟩ := hpq
  rw [Folder.at?_append, hp, Option.bind_some] at hq
  cases below with
  | nil => rw [List.append_nil]
  | cons name rest =>
    rw [Entry.at?_cons_of_not_isFolder rfl] at hq
    cases hq

/-- The way to an entry leads through directories. -/
theorem Folder.exists_at?_of_isPrefix {folder : Folder} {dir place : Place} {e : Entry}
    (he : folder.at? place = some e) (hpre : dir <+: place) (hne : dir ≠ place) :
    ∃ entries, folder.at? dir = some (.folder entries) := by
  obtain ⟨below, rfl⟩ := hpre
  rw [Folder.at?_append, Option.bind_eq_some_iff] at he
  obtain ⟨e', hdir, hbelow⟩ := he
  cases below with
  | nil => exact absurd (List.append_nil dir).symm hne
  | cons name rest =>
    cases e' with
    | folder entries => exact ⟨entries, hdir⟩
    | file content | link target =>
      rw [Entry.at?_cons_of_not_isFolder rfl] at hbelow
      cases hbelow

theorem Folder.mem_of_find? {folder : Folder} {name : Text} {e : Entry}
    (h : folder.find? name = some e) : (name, e) ∈ folder := by
  induction folder with
  | nil => cases h
  | cons first rest ih =>
    obtain ⟨n, e'⟩ := first
    rw [Folder.find?] at h
    split at h
    · rename_i same
      rw [same, Option.some.inj h]
      exact List.mem_cons_self
    · exact List.mem_cons_of_mem _ (ih h)

/-! ## Proper trees -/

mutual

/-- The names in every directory of the entry are different and have no slash. -/
def Entry.isProper : Entry → Bool
  | .file _ => true
  | .link _ => true
  | .folder entries => Folder.isProper entries

/-- The names in the directory and in those below it are different and have no slash. -/
def Folder.isProper : Folder → Bool
  | [] => true
  | (name, e) :: rest =>
    !name.contains '/' && (Folder.find? name rest).isNone && e.isProper && Folder.isProper rest

end

theorem Folder.isProper_cons {name : Text} {e : Entry} {rest : Folder} :
    Folder.isProper ((name, e) :: rest) ↔
      '/' ∉ name ∧ Folder.find? name rest = none ∧ e.isProper ∧ Folder.isProper rest := by
  simp [Folder.isProper, and_assoc]

theorem Folder.isProper_of_find? {folder : Folder} (h : folder.isProper) {name : Text} {e : Entry}
    (he : folder.find? name = some e) : '/' ∉ name ∧ e.isProper := by
  induction folder with
  | nil => cases he
  | cons first rest ih =>
    obtain ⟨n, e'⟩ := first
    obtain ⟨hname, -, hentry, hrest⟩ := Folder.isProper_cons.1 h
    rw [Folder.find?] at he
    split at he
    · rename_i same
      obtain rfl : e' = e := Option.some.inj he
      exact ⟨same ▸ hname, hentry⟩
    · exact ih hrest he

/-- The names on the way to an entry have no slash. -/
theorem Folder.slash_not_mem {folder : Folder} (h : folder.isProper) {place : Place} {e : Entry}
    (he : folder.at? place = some e) : ∀ name ∈ place, '/' ∉ name := by
  induction place generalizing folder with
  | nil => exact fun name hname => absurd hname List.not_mem_nil
  | cons first rest ih =>
    rw [Folder.at?_cons, Option.bind_eq_some_iff] at he
    obtain ⟨e', hfind, he⟩ := he
    obtain ⟨hfirst, hproper⟩ := Folder.isProper_of_find? h hfind
    refine List.forall_mem_cons.mpr ⟨hfirst, ?_⟩
    cases e' with
    | folder entries =>
      rw [Entry.at?_folder] at he
      rw [Entry.isProper] at hproper
      exact ih hproper he
    | file content | link target =>
      cases rest with
      | nil => exact fun name hname => absurd hname List.not_mem_nil
      | cons next rest =>
        rw [Entry.at?_cons_of_not_isFolder rfl] at he
        cases he

/-- The directories in a proper tree are proper. -/
theorem Folder.isProper_of_at? {folder : Folder} (h : folder.isProper) {place : Place}
    {entries : Folder} (he : folder.at? place = some (.folder entries)) : entries.isProper := by
  induction place generalizing folder with
  | nil =>
    obtain rfl : folder = entries := Entry.folder.inj (Option.some.inj he)
    exact h
  | cons first rest ih =>
    rw [Folder.at?_cons, Option.bind_eq_some_iff] at he
    obtain ⟨e, hfind, he⟩ := he
    obtain ⟨-, hproper⟩ := Folder.isProper_of_find? h hfind
    cases hfolder : e.isFolder with
    | true =>
      cases e with
      | folder below =>
        rw [Entry.at?_folder] at he
        rw [Entry.isProper] at hproper
        exact ih hproper he
      | file content => cases hfolder
      | link target => cases hfolder
    | false =>
      cases rest with
      | nil =>
        obtain rfl : e = .folder entries := Option.some.inj he
        cases hfolder
      | cons next rest =>
        rw [Entry.at?_cons_of_not_isFolder hfolder] at he
        cases he

theorem components_join {names : List Text} (hne : names ≠ []) (h : ∀ name ∈ names, '/' ∉ name) :
    Path.components (Text.join ['/'] names) = names :=
  Text.pieces_join hne h

/-- The paths of files are apart. -/
theorem Folder.apart {folder : Folder} (h : folder.isProper) {paths : List Text}
    (hfiles : ∀ path ∈ paths, ∃ names content,
      path = Text.join ['/'] names ∧ folder.at? names = some (.file content)) :
    Path.Apart paths := by
  have hne : ∀ {names : Place} {content : ByteArray},
      folder.at? names = some (.file content) → names ≠ [] := by
    rintro names content hat rfl
    cases hat
  intro p hp q hq hpq
  obtain ⟨names, content, rfl, hnames⟩ := hfiles p hp
  obtain ⟨names', content', rfl, hnames'⟩ := hfiles q hq
  rw [components_join (hne hnames) (Folder.slash_not_mem h hnames),
    components_join (hne hnames') (Folder.slash_not_mem h hnames')] at hpq
  rw [Folder.eq_of_isPrefix hnames hnames' hpq]

/-! ## Paths to directories -/

namespace FileTree

theorem at?_of_stroll {tree : Folder} {viaLink : Place → List Text → Except Fault Spot}
    (hlink : ∀ {here names place entries}, viaLink here names = .ok (.folder place entries) →
      tree.at? place = some (.folder entries))
    {here : Place} {names : List Text} {place : Place} {entries : Folder}
    (h : stroll tree viaLink here names = .ok (.folder place entries)) :
    tree.at? place = some (.folder entries) := by
  fun_induction stroll tree viaLink here names with
  | case1 here below hat =>
    cases h
    exact hat
  | case3 here name rest stays ih => exact ih h
  | case5 name rest _ dot ih => exact ih h
  | case8 here name rest _ _ below hat ih => exact ih h
  | case12 => exact hlink h
  | _ => cases h

theorem at?_of_follow {tree : Folder} {links : Nat} {here : Place} {names : List Text}
    {place : Place} {entries : Folder}
    (h : follow tree links here names = .ok (.folder place entries)) :
    tree.at? place = some (.folder entries) := by
  induction links generalizing here names place entries with
  | zero => exact at?_of_stroll (fun hnone => by cases hnone) h
  | succ links ih => exact at?_of_stroll ih h

/-- A path to a directory leads to an entry of the tree. -/
theorem at?_of_locate {tree : Folder} {path : Text} {place : Place} {entries : Folder}
    (h : locate tree path = .ok (.folder place entries)) :
    tree.at? place = some (.folder entries) := by
  rw [locate] at h
  split at h
  · cases h
  · exact at?_of_follow h

end FileTree

end SourceBundle
