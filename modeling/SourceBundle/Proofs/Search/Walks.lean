import Mathlib.Data.List.Infix
import SourceBundle.Proofs.FileTree.Places
import SourceBundle.Search.Walk

/-!
# What walks visit

A walk goes down the tree and hands the scopes of the directories on.  Seen from the entry that it
visits, this comes to a condition on the places on the way there: the ignore files exclude none of
them, each place being judged by the directories above it, and no directory among them is pruned
(`Guide.Reaches`).  The entries for which the condition holds are visited, and no others
(`mem_walk`).
-/

namespace SourceBundle.Search

variable {guide : Guide}

/-! ## Scopes by place -/

/-- The scopes for what a directory holds: that of the directory, then those of the directories
above it up to the root. -/
def Guide.scopesIn (guide : Guide) (dir : List Text) : List Scope :=
  (dir.inits.map guide.scopeAt).reverse

theorem Guide.scopesIn_nil (guide : Guide) : guide.scopesIn [] = [guide.scopeAt []] := rfl

theorem Guide.scopesIn_concat (guide : Guide) (dir : List Text) (name : Text) :
    guide.scopesIn (dir ++ [name]) = guide.scopeAt (dir ++ [name]) :: guide.scopesIn dir := by
  have hinits : (dir ++ [name]).inits = dir.inits ++ [dir ++ [name]] := by
    rw [List.inits_append]
    simp
  rw [Guide.scopesIn, hinits, List.map_append, List.reverse_append]
  rfl

/-- The ignore files exclude the entry at a place. -/
def Guide.excludes (guide : Guide) (names : List Text) (isDir : Bool) : Bool :=
  guide.ignores (guide.scopesIn names.dropLast) names isDir

theorem Guide.excludes_concat (here : List Text) (name : Text) (isDir : Bool) :
    guide.excludes (here ++ [name]) isDir =
      guide.ignores (guide.scopesIn here) (here ++ [name]) isDir := by
  rw [Guide.excludes, List.dropLast_concat]

/-! ## The way to a place -/

/-- The directory at a place is entered. -/
def Guide.enters (guide : Guide) (dir : List Text) : Bool :=
  !guide.excludes dir true && !guide.prunes (Text.join ['/'] dir)

/-- The entry at `names` below the directory `here` is visited, if that directory is entered. -/
structure Guide.Reaches (guide : Guide) (here names : List Text) (isDir : Bool) : Prop where
  kept : guide.excludes (here ++ names) isDir = false
  opened : isDir → guide.enters (here ++ names)
  entered : ∀ dir, dir ≠ [] → dir <+: names → dir ≠ names → guide.enters (here ++ dir)

theorem Guide.reaches_singleton {here : List Text} {name : Text} {isDir : Bool} :
    guide.Reaches here [name] isDir ↔
      guide.excludes (here ++ [name]) isDir = false ∧ (isDir → guide.enters (here ++ [name])) := by
  constructor
  · exact fun h => ⟨h.kept, h.opened⟩
  · rintro ⟨kept, opened⟩
    refine ⟨kept, opened, ?_⟩
    intro dir hne hpre hother
    rcases List.prefix_cons_iff.mp hpre with rfl | ⟨rest, rfl, hrest⟩
    · exact absurd rfl hne
    · rw [List.prefix_nil.mp hrest] at hother
      exact absurd rfl hother

theorem Guide.reaches_folder {here : List Text} {name : Text} :
    guide.Reaches here [name] true ↔ guide.enters (here ++ [name]) := by
  rw [Guide.reaches_singleton]
  constructor
  · exact fun h => h.2 rfl
  · intro h
    have kept := h
    rw [Guide.enters, Bool.and_eq_true, Bool.not_eq_true'] at kept
    exact ⟨kept.1, fun _ => h⟩

theorem Guide.reaches_cons {here names : List Text} {name : Text} {isDir : Bool}
    (hne : names ≠ []) :
    guide.Reaches here (name :: names) isDir ↔
      guide.enters (here ++ [name]) ∧ guide.Reaches (here ++ [name]) names isDir := by
  have hsplit : ∀ rest, here ++ name :: rest = (here ++ [name]) ++ rest := List.append_cons here name
  constructor
  · rintro ⟨kept, opened, entered⟩
    rw [hsplit] at kept opened
    refine ⟨?_, kept, opened, ?_⟩
    · exact entered [name] (List.cons_ne_nil _ _)
        ((List.prefix_cons_inj name).mpr List.nil_prefix) (by simpa using hne.symm)
    · intro dir _ hpre hother
      rw [← hsplit]
      exact entered (name :: dir) (List.cons_ne_nil _ _) ((List.prefix_cons_inj name).mpr hpre)
        (by simpa using hother)
  · rintro ⟨first, kept, opened, entered⟩
    refine ⟨by rwa [hsplit], by rwa [hsplit], ?_⟩
    intro dir hdir hpre hother
    rcases List.prefix_cons_iff.mp hpre with rfl | ⟨rest, rfl, hrest⟩
    · exact absurd rfl hdir
    · by_cases hempty : rest = []
      · rw [hempty]
        exact first
      · rw [hsplit]
        exact entered rest hempty hrest (by simpa using hother)

/-! ## Visits -/

theorem Visit.eq_mk_iff {v : Visit} {names : List Text} {e : Entry} :
    v = ⟨names, e⟩ ↔ v.names = names ∧ v.entry = e := by
  cases v
  simp

theorem visitEntry_of_not_isFolder {e : Entry} (he : e.isFolder = false) (here : List Text)
    (name : Text) :
    visitEntry guide (guide.scopesIn here) here name e =
      if guide.excludes (here ++ [name]) false then [] else [⟨here ++ [name], e⟩] := by
  cases e with
  | folder entries => cases he
  | file content => rw [visitEntry, Guide.excludes_concat]
  | link target => rw [visitEntry, Guide.excludes_concat]

theorem visitEntry_folder (here : List Text) (name : Text) (entries : Folder) :
    visitEntry guide (guide.scopesIn here) here name (.folder entries) =
      if guide.enters (here ++ [name]) then
        ⟨here ++ [name], .folder entries⟩ ::
          visitAll guide (guide.scopesIn (here ++ [name])) (here ++ [name]) entries
      else [] := by
  rw [visitEntry, ← Guide.excludes_concat, ← Guide.scopesIn_concat, Guide.enters]
  cases guide.excludes (here ++ [name]) true <;>
    cases guide.prunes (Text.join ['/'] (here ++ [name])) <;> simp

/-- Below a file or a link there is nothing to visit. -/
theorem exists_at?_of_not_isFolder {e : Entry} (he : e.isFolder = false) {v : Visit}
    {here : List Text} {name : Text} :
    (∃ rest, v.names = here ++ name :: rest ∧ e.at? rest = some v.entry ∧
        guide.Reaches here (name :: rest) v.entry.isFolder) ↔
      guide.excludes (here ++ [name]) false = false ∧ v = ⟨here ++ [name], e⟩ := by
  rw [Visit.eq_mk_iff]
  constructor
  · rintro ⟨rest, hnames, hat, hreach⟩
    cases rest with
    | nil =>
      obtain rfl : e = v.entry := Option.some.inj hat
      rw [he] at hreach
      exact ⟨hreach.kept, hnames, rfl⟩
    | cons next rest =>
      rw [Entry.at?_cons_of_not_isFolder he] at hat
      cases hat
  · rintro ⟨kept, hnames, hentry⟩
    refine ⟨[], hnames, congrArg some hentry.symm, ?_⟩
    rw [hentry, he]
    exact Guide.reaches_singleton.mpr ⟨kept, Bool.false_ne_true.elim⟩

mutual

theorem mem_visitEntry (guide : Guide) (v : Visit) (here : List Text) (name : Text) :
    (e : Entry) → e.isProper → (v ∈ visitEntry guide (guide.scopesIn here) here name e ↔
      ∃ rest, v.names = here ++ name :: rest ∧ e.at? rest = some v.entry ∧
        guide.Reaches here (name :: rest) v.entry.isFolder)
  | .file content, _ => by
    rw [exists_at?_of_not_isFolder rfl, visitEntry_of_not_isFolder rfl]
    cases guide.excludes (here ++ [name]) false <;> simp
  | .link target, _ => by
    rw [exists_at?_of_not_isFolder rfl, visitEntry_of_not_isFolder rfl]
    cases guide.excludes (here ++ [name]) false <;> simp
  | .folder entries, h => by
    rw [Entry.isProper] at h
    have below := mem_visitAll guide v (here ++ [name]) entries h
    rw [visitEntry_folder]
    constructor
    · intro hv
      split at hv
      · rename_i henters
        rcases List.mem_cons.mp hv with hself | hbelow
        · obtain ⟨hnames, hentry⟩ := Visit.eq_mk_iff.mp hself
          refine ⟨[], hnames, ?_, ?_⟩
          · rw [hentry, Entry.at?_nil]
          · rw [hentry]
            exact Guide.reaches_folder.mpr henters
        · obtain ⟨names, hne, hnames, hat, hreach⟩ := below.mp hbelow
          refine ⟨names, by rw [hnames, ← List.append_cons], by rw [Entry.at?_folder, hat], ?_⟩
          exact (Guide.reaches_cons hne).mpr ⟨henters, hreach⟩
      · exact absurd hv List.not_mem_nil
    · rintro ⟨rest, hnames, hat, hreach⟩
      rw [Entry.at?_folder] at hat
      by_cases hrest : rest = []
      · subst hrest
        obtain hentry : .folder entries = v.entry := Option.some.inj hat
        rw [← hentry] at hreach
        rw [if_pos (Guide.reaches_folder.mp hreach)]
        exact List.mem_cons.mpr (.inl (Visit.eq_mk_iff.mpr ⟨hnames, hentry.symm⟩))
      · obtain ⟨henters, hreach⟩ := (Guide.reaches_cons hrest).mp hreach
        rw [if_pos henters]
        rw [List.append_cons] at hnames
        exact List.mem_cons_of_mem _ (below.mpr ⟨rest, hrest, hnames, hat, hreach⟩)

theorem mem_visitAll (guide : Guide) (v : Visit) (here : List Text) :
    (entries : Folder) → entries.isProper →
      (v ∈ visitAll guide (guide.scopesIn here) here entries ↔
        ∃ names, names ≠ [] ∧ v.names = here ++ names ∧ entries.at? names = some v.entry ∧
          guide.Reaches here names v.entry.isFolder)
  | [], _ => by
    rw [visitAll]
    constructor
    · exact fun h => absurd h List.not_mem_nil
    · rintro ⟨names, hne, -, hat, -⟩
      cases names with
      | nil => exact absurd rfl hne
      | cons name names =>
        rw [Folder.at?_nil_cons] at hat
        cases hat
  | (name, e) :: rest, h => by
    obtain ⟨-, hnew, hentry, hrest⟩ := Folder.isProper_cons.1 h
    rw [visitAll, List.mem_append, mem_visitEntry guide v here name e hentry,
      mem_visitAll guide v here rest hrest]
    -- A place below `name` is looked up in `e`, any other in the rest of the directory.
    have hat : ∀ (first : Text) (names : List Text), Folder.at? ((name, e) :: rest) (first :: names) =
        if name = first then e.at? names else Folder.at? rest (first :: names) := by
      intro first names
      rw [Folder.at?_cons, Folder.find?]
      split
      · rw [Option.bind_some]
      · rw [Folder.at?_cons]
    constructor
    · rintro (⟨names, hnames, hfound, hreach⟩ | ⟨names, hne, hnames, hfound, hreach⟩)
      · exact ⟨name :: names, List.cons_ne_nil _ _, hnames, by rw [hat, if_pos rfl, hfound], hreach⟩
      · refine ⟨names, hne, hnames, ?_, hreach⟩
        cases names with
        | nil => exact absurd rfl hne
        | cons first names =>
          have hother : name ≠ first := by
            rintro rfl
            rw [Folder.at?_cons, hnew] at hfound
            cases hfound
          rw [hat, if_neg hother, hfound]
    · rintro ⟨names, hne, hnames, hfound, hreach⟩
      cases names with
      | nil => exact absurd rfl hne
      | cons first names =>
        rw [hat] at hfound
        split at hfound
        · rename_i same
          subst same
          exact .inl ⟨names, hnames, hfound, hreach⟩
        · exact .inr ⟨first :: names, hne, hnames, hfound, hreach⟩

end

/-- A walk visits the entries that it reaches. -/
theorem mem_walk {entries : Folder} (h : entries.isProper) (hinput : guide.isInput = false)
    {v : Visit} :
    v ∈ walk guide entries ↔
      v.names ≠ [] ∧ entries.at? v.names = some v.entry ∧
        guide.Reaches [] v.names v.entry.isFolder := by
  rw [walk, hinput, if_neg Bool.false_ne_true, ← Guide.scopesIn_nil, mem_visitAll guide v [] _ h]
  constructor
  · rintro ⟨names, hne, hnames, hat, hreach⟩
    rw [List.nil_append] at hnames
    rw [hnames]
    exact ⟨hne, hat, hreach⟩
  · rintro ⟨hne, hat, hreach⟩
    exact ⟨v.names, hne, rfl, hat, hreach⟩

end SourceBundle.Search
