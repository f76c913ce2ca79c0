import Mathlib.Data.List.SplitBy
import SourceBundle.Proofs.Outline.Chunks

/-!
# Runs of chunks

Chunks that follow directly upon each other make a run, and a list of chunks is cut into its longest
runs in one way only, which is what `List.splitBy` gives.  Joining makes one chunk of each run and
does nothing else (`joinAdjacent_runs`).

Rows have numbers of 64 bits, so there is a last one, and joining takes row 0 for the row after it.
The rows are those of the file as long as no chunk ends there and has another one behind it
(`HaveRowsAfter`).  Otherwise a chunk may take in one that does not follow upon it
(`joinAdjacent_lastRow`).

While the chunks are joined, the last chunk of the result stands for the run that has been read so
far (`IsJoinOf`).  Whether the next chunk belongs to the run is decided by the end of that chunk, and
this is the end of the run's last chunk, whatever was joined before.
-/

namespace SourceBundle.Outline

variable {head chunk other : Chunk} {run chunks rest : List Chunk}

/-- The other chunk starts on the row after the last one of the chunk. -/
def Chunk.meets (chunk other : Chunk) : Bool := chunk.endRow + 1 == other.startRow

theorem Chunk.meets_iff : chunk.meets other = true ↔ chunk.endRow + 1 = other.startRow := beq_iff_eq

theorem Chunk.not_meets_iff : chunk.meets other = false ↔ ¬ chunk.endRow + 1 = other.startRow := by
  rw [Bool.eq_false_iff, Ne, Chunk.meets_iff]

/-- There is a row after each row on which a chunk ends that has another one behind it. -/
def HaveRowsAfter (chunks : List Chunk) : Prop :=
  ∀ row ∈ (chunks.map Chunk.endRow).dropLast, row + 1 < UInt64.size

theorem haveRowsAfter_cons_cons :
    HaveRowsAfter (head :: chunk :: rest) ↔
      head.endRow + 1 < UInt64.size ∧ HaveRowsAfter (chunk :: rest) := by
  simp [HaveRowsAfter]

theorem HaveRowsAfter.cons (h : HaveRowsAfter rest) (hhead : head.endRow + 1 < UInt64.size) :
    HaveRowsAfter (head :: rest) := by
  cases rest with
  | nil => exact nofun
  | cons chunk rest => exact haveRowsAfter_cons_cons.mpr ⟨hhead, h⟩

/-- Short of the last row, the row after a row is the next one. -/
theorem rowAfter_eq {row : Nat} (h : row + 1 < UInt64.size) : rowAfter row = row + 1 :=
  Nat.mod_eq_of_lt h

/-- The chunk is the run in one piece: it starts where the first chunk of the run does, ends where
the last one does, and has the contents of all of them, one below the other. -/
structure IsJoinOf (run : List Chunk) (chunk : Chunk) : Prop where
  start : run.head?.map Chunk.startRow = some chunk.startRow
  stop : run.getLast?.map Chunk.endRow = some chunk.endRow
  content : chunk.content = Text.join ['\n'] (run.map Chunk.content)

theorem isJoinOf_singleton (chunk : Chunk) : IsJoinOf [chunk] chunk := ⟨rfl, rfl, rfl⟩

theorem IsJoinOf.ne_nil (h : IsJoinOf run head) : run ≠ [] := by
  rintro rfl
  cases h.start

/-- The chunk that ends the run ends where the run does. -/
theorem IsJoinOf.meets_getLast (h : IsJoinOf run head) :
    ∀ last ∈ run.getLast?, last.meets chunk = head.meets chunk := by
  intro last hlast
  have hstop := h.stop
  rw [Option.mem_def.mp hlast, Option.map_some] at hstop
  rw [Chunk.meets, Chunk.meets, Option.some.inj hstop]

/-- A run goes on with a chunk that the joined one meets. -/
theorem IsJoinOf.concat (h : IsJoinOf run head) (chunk : Chunk) :
    IsJoinOf (run ++ [chunk])
      ⟨head.content ++ '\n' :: chunk.content, head.startRow, chunk.endRow⟩ where
  start := by
    rw [List.head?_append_of_ne_nil run h.ne_nil, h.start]
  stop := by
    rw [List.getLast?_concat, Option.map_some]
  content := by
    have hne : run.map Chunk.content ≠ [] := by simpa using h.ne_nil
    have hone : [chunk].map Chunk.content ≠ [] := List.cons_ne_nil _ _
    rw [List.map_append, Text.join_append hne hone, ← h.content]
    simp [Text.join]

/-! ## What joining makes of the runs -/

/-- With `run` read and joined to `head`, joining the rest makes a chunk of each run of all of
them. -/
theorem forall₂_isJoinOf_joinOnto (hjoin : IsJoinOf run head)
    (hrun : run.IsChain fun a b => a.meets b) (hrows : HaveRowsAfter (head :: rest)) :
    List.Forall₂ IsJoinOf ((run ++ rest).splitBy Chunk.meets) (joinOnto head rest) := by
  induction rest generalizing run head with
  | nil =>
    rw [List.append_nil, List.splitBy_of_isChain hjoin.ne_nil hrun]
    exact .cons hjoin .nil
  | cons chunk rest ih =>
    obtain ⟨hhead, hrest⟩ := haveRowsAfter_cons_cons.mp hrows
    rw [joinOnto, rowAfter_eq hhead]
    split
    · rename_i hmeets
      have hlonger : (run ++ [chunk]).IsChain fun a b => a.meets b := by
        refine List.isChain_append.mpr ⟨hrun, List.isChain_singleton _, ?_⟩
        intro last hlast next hnext
        obtain rfl : chunk = next := Option.some.inj hnext
        rw [hjoin.meets_getLast last hlast]
        exact Chunk.meets_iff.mpr hmeets
      rw [List.append_cons]
      exact ih (hjoin.concat chunk) hlonger hrest
    · rename_i hmeets
      have hends : ∀ last ∈ run.getLast?, last.meets chunk = false := by
        intro last hlast
        rw [hjoin.meets_getLast last hlast]
        exact Chunk.not_meets_iff.mpr hmeets
      rw [List.splitBy_append_cons rest hends, List.splitBy_of_isChain hjoin.ne_nil hrun]
      exact .cons hjoin (ih (isJoinOf_singleton chunk) (List.isChain_singleton _) hrest)

theorem forall₂_isJoinOf_joinAdjacent (hrows : HaveRowsAfter chunks) :
    List.Forall₂ IsJoinOf (chunks.splitBy Chunk.meets) (joinAdjacent chunks) := by
  cases chunks with
  | nil => exact .nil
  | cons chunk rest =>
    exact forall₂_isJoinOf_joinOnto (isJoinOf_singleton chunk) (List.isChain_singleton _) hrows

/-- A chunk made of one run does not meet the one made of the next. -/
theorem IsJoinOf.not_meets {next : List Chunk} (h : IsJoinOf run chunk) (h' : IsJoinOf next other)
    (hrun : run ≠ []) (hnext : next ≠ [])
    (hends : (run.getLast hrun).meets (next.head hnext) = false) : chunk.meets other = false := by
  have hstop := h.stop
  have hstart := h'.start
  rw [List.getLast?_eq_some_getLast hrun, Option.map_some] at hstop
  rw [List.head?_eq_some_head hnext, Option.map_some] at hstart
  rw [Chunk.meets, Option.some.inj hstop, Option.some.inj hstart] at hends
  exact hends

/-- No two neighbours of what joining gives follow directly upon each other. -/
theorem isChain_joinAdjacent (hrows : HaveRowsAfter chunks) :
    (joinAdjacent chunks).IsChain fun a b => a.meets b = false := by
  have hends := List.isChain_getLast_head_splitBy Chunk.meets chunks
  have hjoins := forall₂_isJoinOf_joinAdjacent hrows
  generalize chunks.splitBy Chunk.meets = runs at hends hjoins
  generalize joinAdjacent chunks = joined at hjoins
  induction hjoins with
  | nil => exact .nil
  | cons hjoin hjoins ih =>
    rw [List.isChain_cons] at hends ⊢
    refine ⟨fun next hnext => ?_, ih hends.2⟩
    cases hjoins with
    | nil => cases hnext
    | cons hjoin' hjoins =>
      obtain rfl := Option.some.inj hnext
      obtain ⟨hrun, hrun', hapart⟩ := hends.1 _ rfl
      exact hjoin.not_meets hjoin' hrun hrun' hapart

theorem joinOnto_eq_cons (h : (head :: rest).IsChain fun a b => a.meets b = false)
    (hrows : HaveRowsAfter (head :: rest)) : joinOnto head rest = head :: rest := by
  induction rest generalizing head with
  | nil => rfl
  | cons chunk rest ih =>
    obtain ⟨hmeets, hchain⟩ := List.isChain_cons_cons.mp h
    obtain ⟨hhead, hrest⟩ := haveRowsAfter_cons_cons.mp hrows
    rw [joinOnto, rowAfter_eq hhead, if_neg (Chunk.not_meets_iff.mp hmeets), ih hchain hrest]

/-- Chunks without neighbours that follow directly upon each other are left as they are. -/
theorem joinAdjacent_eq_self (h : chunks.IsChain fun a b => a.meets b = false)
    (hrows : HaveRowsAfter chunks) : joinAdjacent chunks = chunks := by
  cases chunks with
  | nil => rfl
  | cons chunk rest => exact joinOnto_eq_cons h hrows

theorem HaveRowsAfter.joinOnto (h : HaveRowsAfter (head :: rest)) :
    HaveRowsAfter (joinOnto head rest) := by
  induction rest generalizing head with
  | nil => exact h
  | cons chunk rest ih =>
    obtain ⟨hhead, hrest⟩ := haveRowsAfter_cons_cons.mp h
    rw [Outline.joinOnto]
    split
    · -- The joined chunk ends where the second one does.
      exact ih hrest
    · exact (ih hrest).cons hhead

/-- Joined chunks end where some of the chunks do, and the last of them where the last chunk does. -/
theorem HaveRowsAfter.joinAdjacent (h : HaveRowsAfter chunks) :
    HaveRowsAfter (joinAdjacent chunks) := by
  cases chunks with
  | nil => exact h
  | cons chunk rest => exact h.joinOnto

/-- Joining joined chunks again changes nothing. -/
theorem joinAdjacent_idem (h : HaveRowsAfter chunks) :
    joinAdjacent (joinAdjacent chunks) = joinAdjacent chunks :=
  joinAdjacent_eq_self (isChain_joinAdjacent h) h.joinAdjacent

/-! ## What joining keeps -/

theorem contents_of_forall₂ {runs : List (List Chunk)} {joined : List Chunk}
    (h : List.Forall₂ IsJoinOf runs joined) :
    joined.map Chunk.content = (runs.map (List.map Chunk.content)).map (Text.join ['\n']) := by
  induction h with
  | nil => rfl
  | cons hjoin _ ih => rw [List.map_cons, List.map_cons, List.map_cons, hjoin.content, ih]

/-- One below the other, the joined chunks have the text that the chunks have. -/
theorem join_contents_joinAdjacent (hrows : HaveRowsAfter chunks) :
    Text.join ['\n'] ((joinAdjacent chunks).map Chunk.content) =
      Text.join ['\n'] (chunks.map Chunk.content) := by
  have hne : [] ∉ (chunks.splitBy Chunk.meets).map (List.map Chunk.content) := by simp
  rw [contents_of_forall₂ (forall₂_isJoinOf_joinAdjacent hrows), Text.join_map_join hne,
    ← List.map_flatten, List.flatten_splitBy]

/-- The rows of the joined chunks run forwards when those of the chunks do. -/
theorem startRow_le_endRow_joinOnto (hrows : HaveRowsAfter (head :: rest))
    (h : ∀ c ∈ head :: rest, c.startRow ≤ c.endRow) :
    ∀ c ∈ joinOnto head rest, c.startRow ≤ c.endRow := by
  induction rest generalizing head with
  | nil => exact h
  | cons chunk rest ih =>
    obtain ⟨hnext, hrows⟩ := haveRowsAfter_cons_cons.mp hrows
    obtain ⟨hhead, hrest⟩ := List.forall_mem_cons.mp h
    rw [joinOnto, rowAfter_eq hnext]
    split
    · rename_i hmeets
      obtain ⟨hchunk, hrest⟩ := List.forall_mem_cons.mp hrest
      refine ih hrows (List.forall_mem_cons.mpr ⟨?_, hrest⟩)
      show head.startRow ≤ chunk.endRow
      omega
    · exact List.forall_mem_cons.mpr ⟨hhead, ih hrows hrest⟩

theorem startRow_le_endRow_joinAdjacent (hrows : HaveRowsAfter chunks)
    (h : ∀ c ∈ chunks, c.startRow ≤ c.endRow) :
    ∀ c ∈ joinAdjacent chunks, c.startRow ≤ c.endRow := by
  cases chunks with
  | nil => exact h
  | cons chunk rest => exact startRow_le_endRow_joinOnto hrows h

/-- Joined chunks start where some of the chunks do, in the same order. -/
theorem startRows_joinOnto_sublist (head : Chunk) (rest : List Chunk) :
    ((joinOnto head rest).map Chunk.startRow).Sublist ((head :: rest).map Chunk.startRow) := by
  induction rest generalizing head with
  | nil => exact List.Sublist.refl _
  | cons chunk rest ih =>
    rw [joinOnto]
    split
    · exact (ih _).trans ((List.sublist_cons_self _ _).cons_cons _)
    · exact (ih chunk).cons_cons _

theorem startRows_joinAdjacent_sublist (chunks : List Chunk) :
    ((joinAdjacent chunks).map Chunk.startRow).Sublist (chunks.map Chunk.startRow) := by
  cases chunks with
  | nil => exact List.Sublist.refl _
  | cons chunk rest => exact startRows_joinOnto_sublist chunk rest

/-- Joining keeps the start rows strictly ascending. -/
theorem pairwise_joinAdjacent (h : chunks.Pairwise fun a b => a.startRow < b.startRow) :
    (joinAdjacent chunks).Pairwise fun a b => a.startRow < b.startRow := by
  have hrows := List.pairwise_map.mpr h
  exact List.pairwise_map.mp (hrows.sublist (startRows_joinAdjacent_sublist chunks))

/-- Joining makes one chunk of each of the longest runs of chunks that follow directly upon each
other, and loses no text.  No two neighbours of the result follow directly upon each other, so joining
again changes nothing, and neither does choosing and joining the chunks that were chosen and joined
before. -/
theorem joinAdjacent_runs (hrows : HaveRowsAfter chunks) :
    List.Forall₂ IsJoinOf (chunks.splitBy Chunk.meets) (joinAdjacent chunks) ∧
      Text.join ['\n'] ((joinAdjacent chunks).map Chunk.content) =
        Text.join ['\n'] (chunks.map Chunk.content) ∧
      (joinAdjacent chunks).IsChain (fun a b => a.meets b = false) ∧
      joinAdjacent (joinAdjacent chunks) = joinAdjacent chunks ∧
      ((∀ c ∈ chunks, c.startRow ≤ c.endRow) →
        ∀ c ∈ joinAdjacent chunks, c.startRow ≤ c.endRow) ∧
      (HaveRowsAfter (longestPerRow chunks) →
        (joinAdjacent (longestPerRow chunks)).Pairwise (fun a b => a.startRow < b.startRow) ∧
          joinAdjacent (longestPerRow (joinAdjacent (longestPerRow chunks))) =
            joinAdjacent (longestPerRow chunks)) := by
  refine ⟨forall₂_isJoinOf_joinAdjacent hrows, join_contents_joinAdjacent hrows,
    isChain_joinAdjacent hrows, joinAdjacent_idem hrows,
    startRow_le_endRow_joinAdjacent hrows, fun hchosen => ?_⟩
  have hascending : (joinAdjacent (longestPerRow chunks)).Pairwise fun a b =>
      a.startRow < b.startRow := pairwise_joinAdjacent (pairwise_longestPerRow chunks)
  refine ⟨hascending, ?_⟩
  rw [longestPerRow_eq_self hascending, joinAdjacent_idem hchosen]

/-- Two runs of two chunks, the later rows first, and a chunk on the row where the second run ends. -/
def backwardRuns : List Chunk :=
  [⟨['a'], 4, 5⟩, ⟨['b'], 6, 6⟩, ⟨['c'], 0, 1⟩, ⟨['d'], 2, 2⟩, ⟨['e'], 2, 3⟩]

theorem joinAdjacent_runs_backwardRuns :
    HaveRowsAfter backwardRuns ∧ HaveRowsAfter (longestPerRow backwardRuns) ∧
      (∀ c ∈ backwardRuns, c.startRow ≤ c.endRow) ∧
      List.Forall₂ IsJoinOf
        [[⟨['a'], 4, 5⟩, ⟨['b'], 6, 6⟩], [⟨['c'], 0, 1⟩, ⟨['d'], 2, 2⟩], [⟨['e'], 2, 3⟩]]
        [⟨['a', '\n', 'b'], 4, 6⟩, ⟨['c', '\n', 'd'], 0, 2⟩, ⟨['e'], 2, 3⟩] ∧
      joinAdjacent backwardRuns =
        [⟨['a', '\n', 'b'], 4, 6⟩, ⟨['c', '\n', 'd'], 0, 2⟩, ⟨['e'], 2, 3⟩] ∧
      (∀ c ∈ joinAdjacent backwardRuns, c.startRow ≤ c.endRow) ∧
      joinAdjacent (longestPerRow (joinAdjacent (longestPerRow backwardRuns))) =
        joinAdjacent (longestPerRow backwardRuns) := by
  have hafter : HaveRowsAfter backwardRuns := by
    unfold HaveRowsAfter
    decide
  have hchosen : HaveRowsAfter (longestPerRow backwardRuns) := by
    unfold HaveRowsAfter
    decide
  have hrows : ∀ c ∈ backwardRuns, c.startRow ≤ c.endRow := by decide
  obtain ⟨hruns, -, -, -, hkept, hagain⟩ := joinAdjacent_runs hafter
  exact ⟨hafter, hchosen, hrows, hruns, rfl, hkept hrows, (hagain hchosen).2⟩

/-- A chunk that ends on the last row that has a number, and one on row 0. -/
def lastRowChunks : List Chunk := [⟨['a'], 0, UInt64.size - 1⟩, ⟨['b'], 0, 0⟩]

/-- The chunks are joined although the second one does not follow upon the first. -/
theorem joinAdjacent_lastRow :
    lastRowChunks.splitBy Chunk.meets = [[⟨['a'], 0, UInt64.size - 1⟩], [⟨['b'], 0, 0⟩]] ∧
      joinAdjacent lastRowChunks = [⟨['a', '\n', 'b'], 0, 0⟩] ∧
      ¬ List.Forall₂ IsJoinOf (lastRowChunks.splitBy Chunk.meets)
        (joinAdjacent lastRowChunks) := by
  have hruns : lastRowChunks.splitBy Chunk.meets =
      [[⟨['a'], 0, UInt64.size - 1⟩], [⟨['b'], 0, 0⟩]] := by decide
  have hjoined : joinAdjacent lastRowChunks = [⟨['a', '\n', 'b'], 0, 0⟩] := by decide
  refine ⟨hruns, hjoined, fun h => ?_⟩
  rw [hruns, hjoined] at h
  exact absurd h.length_eq (by decide)

end SourceBundle.Outline
