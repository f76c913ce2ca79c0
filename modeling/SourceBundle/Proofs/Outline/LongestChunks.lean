import Mathlib.Data.List.MinMax
import SourceBundle.Proofs.Outline.Chunks
import SourceBundle.Proofs.Sorting

/-!
# The longest chunk of each row

Chunks are placed one by one into a list that is kept in order of the start rows, and a chunk that is
there gives way only to a longer one.  Looked up by its row, such a list is a table: placing a chunk
changes what stands on the chunk's own row and nothing else (`atRow?_place_self`,
`atRow?_place_of_ne`).  So what stands on a row after all chunks have been placed depends only on the
chunks of that row, in their order, and it is the first of the longest of them
(`atRow?_longestPerRow`).

The chunks of different rows therefore do not get into each other's way, however they are mixed, and
choosing from chunks that have been chosen leaves them as they are (`longestPerRow_firstLongest`).
-/

namespace SourceBundle.Outline

variable {chunk : Chunk} {kept chunks : List Chunk} {row : Nat}

/-! ## Looking up a row -/

/-- The chunks that start on a row, in their order. -/
def onRow (row : Nat) (chunks : List Chunk) : List Chunk :=
  chunks.filter fun chunk => chunk.startRow == row

theorem mem_onRow : chunk ∈ onRow row chunks ↔ chunk ∈ chunks ∧ chunk.startRow = row := by
  rw [onRow, List.mem_filter, beq_iff_eq]

/-- The chunk that a list has on a row. -/
def atRow? (row : Nat) (kept : List Chunk) : Option Chunk :=
  kept.find? fun chunk => chunk.startRow == row

theorem atRow?_cons_self (chunk : Chunk) (rest : List Chunk) :
    atRow? chunk.startRow (chunk :: rest) = some chunk :=
  List.find?_cons_of_pos (beq_self_eq_true _)

theorem atRow?_cons_of_ne (h : chunk.startRow ≠ row) (rest : List Chunk) :
    atRow? row (chunk :: rest) = atRow? row rest :=
  List.find?_cons_of_neg (by simpa using h)

/-- No chunk stands on a row above all chunks of the list. -/
theorem atRow?_of_forall_lt (h : ∀ other ∈ kept, row < other.startRow) : atRow? row kept = none := by
  rw [atRow?, List.find?_eq_none]
  intro other hother same
  exact Nat.ne_of_gt (h other hother) (beq_iff_eq.mp same)

theorem mem_of_atRow? (h : atRow? row kept = some chunk) : chunk ∈ kept ∧ chunk.startRow = row :=
  ⟨List.mem_of_find?_eq_some h, by simpa using List.find?_some h⟩

/-- A list in strictly ascending order has one chunk on a row at most. -/
theorem atRow?_of_mem (h : kept.Pairwise fun a b => a.startRow < b.startRow) (hmem : chunk ∈ kept) :
    atRow? chunk.startRow kept = some chunk := by
  induction kept with
  | nil => cases hmem
  | cons first rest ih =>
    obtain ⟨hfirst, hrest⟩ := List.pairwise_cons.mp h
    rcases List.mem_cons.mp hmem with rfl | hmem
    · exact atRow?_cons_self chunk rest
    · rw [atRow?_cons_of_ne (Nat.ne_of_lt (hfirst chunk hmem)), ih hrest hmem]

/-! ## Placing -/

/-- The chunk that stays on a row where one stood, if any, and another comes: the longer one, or else
the one that was there. -/
def longer (standing : Option Chunk) (coming : Chunk) : Chunk :=
  match standing with
  | none => coming
  | some chunk => if chunk.content.length < coming.content.length then coming else chunk

theorem argmax_concat_eq_longer (chunks : List Chunk) (coming : Chunk) :
    (chunks ++ [coming]).argmax (fun chunk => chunk.content.length) =
      some (longer (chunks.argmax fun chunk => chunk.content.length) coming) := by
  rw [List.argmax_concat]
  cases chunks.argmax fun chunk => chunk.content.length with
  | none => rfl
  | some standing => exact (apply_ite some _ _ _).symm

/-- On its own row a chunk is placed against the one that stands there. -/
theorem atRow?_place_self (h : kept.Pairwise fun a b => a.startRow < b.startRow) (chunk : Chunk) :
    atRow? chunk.startRow (place chunk kept) = some (longer (atRow? chunk.startRow kept) chunk) := by
  induction kept with
  | nil => exact atRow?_cons_self chunk []
  | cons first rest ih =>
    obtain ⟨hfirst, hrest⟩ := List.pairwise_cons.mp h
    unfold place
    split
    · rename_i before
      have hnone : atRow? chunk.startRow (first :: rest) = none := by
        refine atRow?_of_forall_lt fun other hother => ?_
        rcases List.mem_cons.mp hother with rfl | hother
        · exact before
        · exact Nat.lt_trans before (hfirst other hother)
      rw [atRow?_cons_self, hnone, longer]
    · split
      · rename_i behind
        rw [atRow?_cons_of_ne (Nat.ne_of_lt behind), atRow?_cons_of_ne (Nat.ne_of_lt behind), ih hrest]
      · rename_i notBefore notBehind
        have same : first.startRow = chunk.startRow := by omega
        have hstanding : atRow? chunk.startRow (first :: rest) = some first := by
          rw [← same, atRow?_cons_self]
        rw [hstanding, longer]
        split
        · exact atRow?_cons_self chunk rest
        · exact hstanding

/-- No other row is touched. -/
theorem atRow?_place_of_ne (h : chunk.startRow ≠ row) (kept : List Chunk) :
    atRow? row (place chunk kept) = atRow? row kept := by
  induction kept with
  | nil => exact atRow?_cons_of_ne h []
  | cons first rest ih =>
    unfold place
    split
    · exact atRow?_cons_of_ne h _
    · split
      · by_cases hfirst : first.startRow = row
        · rw [← hfirst, atRow?_cons_self, atRow?_cons_self]
        · rw [atRow?_cons_of_ne hfirst, atRow?_cons_of_ne hfirst, ih]
      · rename_i notBefore notBehind
        have same : first.startRow = chunk.startRow := by omega
        split
        · rw [atRow?_cons_of_ne h, atRow?_cons_of_ne (same ▸ h)]
        · rfl

theorem longestPerRow_concat (chunks : List Chunk) (chunk : Chunk) :
    longestPerRow (chunks ++ [chunk]) = place chunk (longestPerRow chunks) := by
  rw [longestPerRow, List.foldl_append]
  rfl

/-- What is chosen for a row is the first of the longest of the row's own chunks. -/
theorem atRow?_longestPerRow (row : Nat) (chunks : List Chunk) :
    atRow? row (longestPerRow chunks) =
      (onRow row chunks).argmax fun chunk => chunk.content.length := by
  -- Chunks are placed from the left, so the induction takes the last one off.
  induction chunks using List.reverseRecOn with
  | nil => rfl
  | append_singleton chunks chunk ih =>
    rw [longestPerRow_concat, onRow, List.filter_append]
    by_cases hrow : chunk.startRow = row
    · subst hrow
      rw [atRow?_place_self (pairwise_longestPerRow chunks), ih, List.filter_singleton,
        beq_self_eq_true, cond_true, argmax_concat_eq_longer]
      rfl
    · have hnot : (chunk.startRow == row) = false := by simpa using hrow
      rw [atRow?_place_of_ne hrow, ih, List.filter_singleton, hnot, cond_false, List.append_nil]
      rfl

/-! ## The chosen chunks -/

/-- The chunk is the first of the longest of those that start on its row: those before it are
shorter, those after it are not longer. -/
def IsFirstLongest (chunks : List Chunk) (chunk : Chunk) : Prop :=
  ∃ before after, chunks = before ++ chunk :: after ∧
    (∀ other ∈ before, other.startRow = chunk.startRow →
      other.content.length < chunk.content.length) ∧
    ∀ other ∈ after, other.startRow = chunk.startRow →
      other.content.length ≤ chunk.content.length

theorem isFirstLongest_of_argmax
    (h : ((onRow chunk.startRow chunks).argmax fun chunk => chunk.content.length) = some chunk) :
    IsFirstLongest chunks chunk := by
  obtain ⟨hmem, longest, first⟩ := List.argmax_eq_some_iff.mp h
  obtain ⟨before, after, hsplit, hnew⟩ := List.eq_append_cons_of_mem (mem_onRow.mp hmem).1
  refine ⟨before, after, hsplit, fun other hother same => ?_, fun other hother same => ?_⟩
  · -- A chunk before it that is as long would come first.
    by_contra hle
    have hrow : onRow chunk.startRow chunks =
        onRow chunk.startRow before ++ onRow chunk.startRow (chunk :: after) := by
      rw [hsplit, onRow, List.filter_append]
      rfl
    have hbefore : other ∈ onRow chunk.startRow before := mem_onRow.mpr ⟨hother, same⟩
    have hindex := first other (hrow ▸ List.mem_append_left _ hbefore) (Nat.not_lt.mp hle)
    have hnot : chunk ∉ onRow chunk.startRow before := fun hmem => hnew (mem_onRow.mp hmem).1
    rw [hrow, List.idxOf_append_of_notMem hnot, List.idxOf_append_of_mem hbefore] at hindex
    have hlt := List.idxOf_lt_length_of_mem hbefore
    omega
  · refine longest other (mem_onRow.mpr ⟨?_, same⟩)
    rw [hsplit]
    exact List.mem_append_right _ (List.mem_cons_of_mem chunk hother)

/-- A row on which a chunk starts has a chunk that is chosen for it. -/
theorem exists_mem_longestPerRow (h : chunk ∈ chunks) :
    ∃ chosen ∈ longestPerRow chunks, chosen.startRow = chunk.startRow := by
  have hne : ((onRow chunk.startRow chunks).argmax fun chunk => chunk.content.length) ≠ none := by
    rw [Ne, List.argmax_eq_none]
    exact List.ne_nil_of_mem (mem_onRow.mpr ⟨h, rfl⟩)
  obtain ⟨chosen, hchosen⟩ := Option.ne_none_iff_exists'.mp hne
  rw [← atRow?_longestPerRow] at hchosen
  exact ⟨chosen, mem_of_atRow? hchosen⟩

/-- Lists in strictly ascending order with the same chunk on each row are equal. -/
theorem eq_of_atRow?_eq {xs ys : List Chunk} (hxs : xs.Pairwise fun a b => a.startRow < b.startRow)
    (hys : ys.Pairwise fun a b => a.startRow < b.startRow)
    (same : ∀ row, atRow? row xs = atRow? row ys) : xs = ys := by
  have : Std.TransCmp fun a b : Chunk => compare a.startRow b.startRow :=
    transCmp_on compare Chunk.startRow
  have hxs' : xs.Pairwise fun a b => compare a.startRow b.startRow = .lt :=
    hxs.imp Nat.compare_eq_lt.mpr
  have hys' : ys.Pairwise fun a b => compare a.startRow b.startRow = .lt :=
    hys.imp Nat.compare_eq_lt.mpr
  refine eq_of_pairwise_lt hxs' hys' fun chunk => ⟨fun h => ?_, fun h => ?_⟩
  · exact (mem_of_atRow? (same _ ▸ atRow?_of_mem hxs h)).1
  · exact (mem_of_atRow? ((same _).symm ▸ atRow?_of_mem hys h)).1

/-- Of chunks in any order, the chosen ones start on strictly ascending rows, which are exactly the
rows on which the chunks start, and each is the first of the longest of its row, counted in
characters.  Chunks that come in another order, those of each row still in the same, give the same
choice, and choosing again changes nothing. -/
theorem longestPerRow_firstLongest (chunks : List Chunk) :
    (longestPerRow chunks).Pairwise (fun a b => a.startRow < b.startRow) ∧
      (∀ row, (∃ chunk ∈ longestPerRow chunks, chunk.startRow = row) ↔
        ∃ chunk ∈ chunks, chunk.startRow = row) ∧
      (∀ chunk ∈ longestPerRow chunks, IsFirstLongest chunks chunk) ∧
      (∀ others : List Chunk, (∀ row, onRow row others = onRow row chunks) →
        longestPerRow others = longestPerRow chunks) ∧
      longestPerRow (longestPerRow chunks) = longestPerRow chunks := by
  refine ⟨pairwise_longestPerRow chunks, fun row => ⟨?_, ?_⟩, ?_, ?_, ?_⟩
  · rintro ⟨chunk, hchunk, rfl⟩
    exact ⟨chunk, longestPerRow_subset chunks hchunk, rfl⟩
  · rintro ⟨chunk, hchunk, rfl⟩
    exact exists_mem_longestPerRow hchunk
  · intro chunk hchunk
    refine isFirstLongest_of_argmax ?_
    rw [← atRow?_longestPerRow]
    exact atRow?_of_mem (pairwise_longestPerRow chunks) hchunk
  · intro others same
    refine eq_of_atRow?_eq (pairwise_longestPerRow others) (pairwise_longestPerRow chunks) ?_
    intro row
    rw [atRow?_longestPerRow, atRow?_longestPerRow, same row]
  · exact longestPerRow_eq_self (pairwise_longestPerRow chunks)

/-- Chunks of two rows in turn.  On the one row the chunk with fewer bytes has more characters, on
the other both are equally long. -/
def mixedRows : List Chunk :=
  [⟨"äöü".toList, 3, 3⟩, ⟨"xy".toList, 0, 1⟩, ⟨"abcd".toList, 3, 5⟩, ⟨"uv".toList, 0, 0⟩]

/-- The chunks of `mixedRows`, one row after the other. -/
def regroupedRows : List Chunk :=
  [⟨"xy".toList, 0, 1⟩, ⟨"uv".toList, 0, 0⟩, ⟨"äöü".toList, 3, 3⟩, ⟨"abcd".toList, 3, 5⟩]

theorem longestPerRow_firstLongest_mixedRows :
    (∀ row, onRow row regroupedRows = onRow row mixedRows) ∧
      longestPerRow mixedRows = [⟨"xy".toList, 0, 1⟩, ⟨"abcd".toList, 3, 5⟩] ∧
      longestPerRow regroupedRows = longestPerRow mixedRows := by
  have same : ∀ row, onRow row regroupedRows = onRow row mixedRows := by
    intro row
    by_cases hzero : row = 0
    · rw [hzero]
      decide
    · by_cases hthree : row = 3
      · rw [hthree]
        decide
      · simp [onRow, regroupedRows, mixedRows, Ne.symm hzero, Ne.symm hthree]
  exact ⟨same, by decide, (longestPerRow_firstLongest mixedRows).2.2.2.1 regroupedRows same⟩

end SourceBundle.Outline
