import SourceBundle.Outline.Chunk
import SourceBundle.Proofs.Text.Rows

/-!
# Lists of chunks

Of the chunks of a file the longest of each row are chosen and those that follow directly upon each
other are joined.  Choosing leaves some of the chunks, in strictly ascending order of their start
rows (`pairwise_longestPerRow`).  Joining keeps the rows of all contents, and writing puts only
separators between them, so each row of what is written comes from a chunk or is a separator
(`mem_rows_write`), but for white space at the two ends.
-/

namespace SourceBundle.Outline

/-! ## Choosing -/

theorem mem_of_mem_place {chunk other : Chunk} {kept : List Chunk} (h : other ∈ place chunk kept) :
    other = chunk ∨ other ∈ kept := by
  induction kept with
  | nil => exact .inl (List.mem_singleton.mp h)
  | cons first rest ih =>
    unfold place at h
    split at h
    · exact List.mem_cons.mp h
    · split at h
      · rcases List.mem_cons.mp h with rfl | h
        · exact .inr List.mem_cons_self
        · exact (ih h).imp_right (List.mem_cons_of_mem first)
      · split at h
        · exact (List.mem_cons.mp h).imp_right (List.mem_cons_of_mem first)
        · exact .inr h

/-- Placing a chunk keeps the start rows strictly ascending. -/
theorem pairwise_place {kept : List Chunk} (h : kept.Pairwise fun a b => a.startRow < b.startRow)
    (chunk : Chunk) : (place chunk kept).Pairwise fun a b => a.startRow < b.startRow := by
  induction kept with
  | nil => exact List.pairwise_singleton _ _
  | cons first rest ih =>
    obtain ⟨hfirst, hrest⟩ := List.pairwise_cons.mp h
    unfold place
    split
    · rename_i before
      refine List.pairwise_cons.mpr ⟨?_, h⟩
      intro other hother
      rcases List.mem_cons.mp hother with rfl | hother
      · exact before
      · exact Nat.lt_trans before (hfirst other hother)
    · split
      · rename_i behind
        refine List.pairwise_cons.mpr ⟨?_, ih hrest⟩
        intro other hother
        rcases mem_of_mem_place hother with rfl | hother
        · exact behind
        · exact hfirst other hother
      · rename_i notBefore notBehind
        have same : chunk.startRow = first.startRow := by omega
        split
        · exact List.pairwise_cons.mpr ⟨fun other hother => same ▸ hfirst other hother, hrest⟩
        · exact h

/-- The chunks that are chosen are some of the chunks. -/
theorem longestPerRow_subset (chunks : List Chunk) : longestPerRow chunks ⊆ chunks := by
  have subset : ∀ kept ⊆ chunks, ∀ chunk ∈ chunks, place chunk kept ⊆ chunks := by
    intro kept h chunk hchunk other hother
    rcases mem_of_mem_place hother with rfl | hother
    · exact hchunk
    · exact h hother
  exact List.foldlRecOn (motive := (· ⊆ chunks)) chunks _ (List.nil_subset chunks) subset

/-- The chunks that are chosen start on strictly ascending rows. -/
theorem pairwise_longestPerRow (chunks : List Chunk) :
    (longestPerRow chunks).Pairwise fun a b => a.startRow < b.startRow :=
  List.foldlRecOn chunks _ .nil fun _ h chunk _ => pairwise_place h chunk

/-- A chunk that starts below all others is placed behind them. -/
theorem place_of_forall_lt {chunk : Chunk} {kept : List Chunk}
    (h : ∀ other ∈ kept, other.startRow < chunk.startRow) : place chunk kept = kept ++ [chunk] := by
  induction kept with
  | nil => rfl
  | cons first rest ih =>
    obtain ⟨hfirst, hrest⟩ := List.forall_mem_cons.mp h
    rw [place, if_neg (Nat.lt_asymm hfirst), if_pos hfirst, ih hrest, List.cons_append]

/-- Nothing is left out of chunks that start on strictly ascending rows. -/
theorem longestPerRow_eq_self {chunks : List Chunk}
    (h : chunks.Pairwise fun a b => a.startRow < b.startRow) : longestPerRow chunks = chunks := by
  have placed : ∀ kept : List Chunk, (kept ++ chunks).Pairwise (fun a b => a.startRow < b.startRow) →
      chunks.foldl (fun kept chunk => place chunk kept) kept = kept ++ chunks := by
    clear h
    induction chunks with
    | nil => exact fun kept _ => (List.append_nil kept).symm
    | cons chunk rest ih =>
      intro kept hkept
      have before : ∀ other ∈ kept, other.startRow < chunk.startRow := fun other hother =>
        (List.pairwise_append.mp hkept).2.2 other hother chunk List.mem_cons_self
      rw [List.append_cons] at hkept ⊢
      rw [List.foldl_cons, place_of_forall_lt before, ih _ hkept]
  exact placed [] h

/-! ## Joining and writing -/

theorem mem_rows_joinOnto {head chunk : Chunk} {rest : List Chunk} {row : Text}
    (h : chunk ∈ joinOnto head rest) (hrow : row ∈ Text.rows chunk.content) :
    ∃ source ∈ head :: rest, row ∈ Text.rows source.content := by
  induction rest generalizing head with
  | nil =>
    obtain rfl : chunk = head := List.mem_singleton.mp h
    exact ⟨chunk, List.mem_cons_self, hrow⟩
  | cons next rest ih =>
    unfold joinOnto at h
    split at h
    · obtain ⟨source, hsource, hrow⟩ := ih h
      rcases List.mem_cons.mp hsource with rfl | hsource
      · -- The rows of the joined content are those of both contents.
        rw [Text.rows_append_newline, List.mem_append] at hrow
        rcases hrow with hrow | hrow
        · exact ⟨head, List.mem_cons_self, hrow⟩
        · exact ⟨next, List.mem_cons_of_mem head List.mem_cons_self, hrow⟩
      · exact ⟨source, List.mem_cons_of_mem head (List.mem_cons_of_mem next hsource), hrow⟩
    · rcases List.mem_cons.mp h with rfl | h
      · exact ⟨chunk, List.mem_cons_self, hrow⟩
      · obtain ⟨source, hsource, hrow⟩ := ih h
        exact ⟨source, List.mem_cons_of_mem head hsource, hrow⟩

/-- Joining adds no row. -/
theorem mem_rows_joinAdjacent {chunk : Chunk} {chunks : List Chunk} {row : Text}
    (h : chunk ∈ joinAdjacent chunks) (hrow : row ∈ Text.rows chunk.content) :
    ∃ source ∈ chunks, row ∈ Text.rows source.content := by
  cases chunks with
  | nil => exact absurd h List.not_mem_nil
  | cons first rest => exact mem_rows_joinOnto h hrow

/-- What holds of separators, of empty rows and of the rows of all chunks, and still holds of a row
from which white space at an end is taken, holds of the rows of what is written. -/
theorem forall_rows_write {P : Text → Prop}
    (hend : ∀ u w, Text.allBlank w = true → P (u ++ w) → P u)
    (hstart : ∀ w u, Text.allBlank w = true → P (w ++ u) → P u) (hempty : P [])
    (hseparator : P separator) {chunks : List Chunk}
    (h : ∀ chunk ∈ chunks, ∀ row ∈ Text.rows chunk.content, P row) :
    ∀ row ∈ Text.rows (write chunks), P row := by
  refine Text.forall_rows_trim hend hstart fun row hrow => ?_
  have hone : '\n' ∉ separator := by decide
  by_cases hnone : chunks.map Chunk.content = []
  · rw [hnone] at hrow
    obtain rfl : row = [] := List.mem_singleton.mp hrow
    exact hempty
  · rcases Text.mem_rows_join hone hnone hrow with rfl | ⟨content, hcontent, hrow⟩
    · exact hseparator
    · obtain ⟨chunk, hchunk, rfl⟩ := List.mem_map.mp hcontent
      exact h chunk hchunk row hrow

end SourceBundle.Outline
