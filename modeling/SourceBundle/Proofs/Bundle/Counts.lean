import Mathlib.Data.List.Perm.Subperm
import SourceBundle.Bundle.Counts
import SourceBundle.Proofs.Sorting

/-!
# Tables of counts

A table is kept in the order of its paths, so a path is in it at most once.  Made of entries, it has
their paths and no others.  When the paths of the entries are different, the table has the entries
themselves; otherwise an entry is lost for every path that comes up again, and the table is shorter
than the list (`length_ofList_iff`).

The numbers of a table add up to the same in any order, and a ranking that is long enough has every
entry of its table.
-/

namespace SourceBundle.Counts

/-- The paths of a table are in ascending order. -/
def Ascending (table : Counts) : Prop := table.Pairwise fun a b => compare a.1 b.1 = .lt

/-! ## Putting a number -/

theorem mem_paths_put {path : Text} {n : Nat} {table : Counts} {q : Text} :
    q ∈ (put path n table).map Prod.fst ↔ q = path ∨ q ∈ table.map Prod.fst := by
  induction table with
  | nil => simp [put]
  | cons entry rest ih =>
    obtain ⟨p, m⟩ := entry
    rw [put]
    cases horder : compare path p with
    | lt => simp
    | eq =>
      have same : path = p := Std.LawfulEqCmp.eq_of_compare horder
      simp [same]
    | gt =>
      rw [List.map_cons, List.mem_cons, ih, List.map_cons, List.mem_cons]
      tauto

theorem ascending_put {table : Counts} (h : table.Ascending) (path : Text) (n : Nat) :
    (put path n table).Ascending := by
  induction table with
  | nil => exact List.pairwise_singleton _ _
  | cons entry rest ih =>
    obtain ⟨p, m⟩ := entry
    obtain ⟨hfirst, hrest⟩ := List.pairwise_cons.mp h
    rw [put]
    cases horder : compare path p with
    | lt =>
      refine List.pairwise_cons.mpr ⟨?_, h⟩
      intro other hother
      rcases List.mem_cons.mp hother with rfl | hother
      · exact horder
      · exact Std.TransCmp.lt_trans horder (hfirst other hother)
    | eq =>
      exact List.pairwise_cons.mpr ⟨hfirst, hrest⟩
    | gt =>
      refine List.pairwise_cons.mpr ⟨?_, ih hrest⟩
      intro other hother
      have hpath : other.1 ∈ (put path n rest).map Prod.fst := List.mem_map_of_mem hother
      rcases mem_paths_put.mp hpath with same | hold
      · rw [same]
        exact Std.OrientedCmp.gt_iff_lt.mp horder
      · obtain ⟨entry, hentry, hsame⟩ := List.mem_map.mp hold
        rw [← hsame]
        exact hfirst entry hentry

/-- A new path makes a new entry. -/
theorem put_perm {path : Text} {table : Counts} (h : path ∉ table.map Prod.fst) (n : Nat) :
    (put path n table).Perm ((path, n) :: table) := by
  induction table with
  | nil => exact .refl _
  | cons entry rest ih =>
    obtain ⟨p, m⟩ := entry
    rw [List.map_cons, List.mem_cons, not_or] at h
    obtain ⟨hp, hrest⟩ := h
    rw [put]
    cases horder : compare path p with
    | lt => exact .refl _
    | eq => exact absurd (Std.LawfulEqCmp.eq_of_compare horder) hp
    | gt => exact ((ih hrest).cons (p, m)).trans (.swap _ _ _)

/-! ## Tables of entries -/

/-- The table after entries have been put into it one after the other. -/
def putAll (entries : List (Text × Nat)) (table : Counts) : Counts :=
  entries.foldl (fun table entry => put entry.1 entry.2 table) table

theorem putAll_cons (entry : Text × Nat) (entries : List (Text × Nat)) (table : Counts) :
    putAll (entry :: entries) table = putAll entries (put entry.1 entry.2 table) := rfl

theorem ofList_eq_putAll (entries : List (Text × Nat)) : ofList entries = putAll entries [] := rfl

theorem mem_paths_putAll {entries : List (Text × Nat)} {table : Counts} {q : Text} :
    q ∈ (putAll entries table).map Prod.fst ↔
      q ∈ entries.map Prod.fst ∨ q ∈ table.map Prod.fst := by
  induction entries generalizing table with
  | nil => simp [putAll]
  | cons entry entries ih =>
    rw [putAll_cons, ih, mem_paths_put, List.map_cons, List.mem_cons]
    tauto

theorem ascending_putAll (entries : List (Text × Nat)) {table : Counts} (h : table.Ascending) :
    (putAll entries table).Ascending := by
  induction entries generalizing table with
  | nil => exact h
  | cons entry entries ih => exact ih (ascending_put h entry.1 entry.2)

/-- Entries of different paths, none of them in the table, are all added to it. -/
theorem putAll_perm {entries : List (Text × Nat)} {table : Counts}
    (h : (entries.map Prod.fst).Nodup)
    (hnew : ∀ q ∈ entries.map Prod.fst, q ∉ table.map Prod.fst) :
    (putAll entries table).Perm (entries ++ table) := by
  induction entries generalizing table with
  | nil => exact .refl _
  | cons entry entries ih =>
    rw [List.map_cons, List.nodup_cons] at h
    rw [List.map_cons, List.forall_mem_cons] at hnew
    have hnew' : ∀ q ∈ entries.map Prod.fst, q ∉ (put entry.1 entry.2 table).map Prod.fst := by
      intro q hq hput
      rcases mem_paths_put.mp hput with rfl | hold
      · exact h.1 hq
      · exact hnew.2 q hq hold
    have hput : (entries ++ put entry.1 entry.2 table).Perm (entries ++ entry :: table) :=
      (put_perm hnew.1 entry.2).append_left entries
    rw [putAll_cons]
    exact ((ih h.2 hnew').trans hput).trans List.perm_middle

theorem nodup_paths_ofList (entries : List (Text × Nat)) :
    ((ofList entries).map Prod.fst).Nodup := by
  have hpaths : ((ofList entries).map Prod.fst).Pairwise fun p q => compare p q = .lt :=
    List.pairwise_map.mpr (ascending_putAll entries .nil)
  exact nodup_of_pairwise_lt hpaths

/-- Entries of different paths are all in the table. -/
theorem ofList_perm {entries : List (Text × Nat)} (h : (entries.map Prod.fst).Nodup) :
    (ofList entries).Perm entries := by
  have hperm : (putAll entries []).Perm (entries ++ []) :=
    putAll_perm h fun q _ => List.not_mem_nil
  rwa [List.append_nil] at hperm

/-- A table has as many entries as it was made of just when their paths are different. -/
theorem length_ofList_iff {entries : List (Text × Nat)} :
    (ofList entries).length = entries.length ↔ (entries.map Prod.fst).Nodup := by
  constructor
  · intro h
    have hsub : ((ofList entries).map Prod.fst).Subperm (entries.map Prod.fst) := by
      refine (nodup_paths_ofList entries).subperm fun q hq => ?_
      rw [ofList_eq_putAll, mem_paths_putAll] at hq
      exact hq.resolve_right List.not_mem_nil
    have hlength : (entries.map Prod.fst).length ≤ ((ofList entries).map Prod.fst).length := by
      rw [List.length_map, List.length_map]
      exact Nat.le_of_eq h.symm
    exact (hsub.perm_of_length_le hlength).nodup_iff.mp (nodup_paths_ofList entries)
  · exact fun h => (ofList_perm h).length_eq

/-! ## Totals and rankings -/

/-- The numbers of a table, added up. -/
def total : Counts → Nat
  | [] => 0
  | (_, n) :: rest => n + total rest

theorem total_perm {table table' : Counts} (h : table.Perm table') :
    total table = total table' := by
  induction h with
  | nil => rfl
  | cons entry h ih => rw [total, total, ih]
  | swap entry entry' rest =>
    simp only [total]
    omega
  | trans h h' ih ih' => rw [ih, ih']

theorem top_perm {table : Counts} {n : Nat} (h : table.length ≤ n) : (table.top n).Perm table := by
  have hsort := sortBy_perm ranksBefore table
  have hlength : (sortBy ranksBefore table).length ≤ n := by rwa [hsort.length_eq]
  rw [top, List.take_of_length_le hlength]
  exact hsort

end SourceBundle.Counts
