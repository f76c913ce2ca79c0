import Mathlib.Data.List.Nodup
import SourceBundle.Proofs.Outline.Excerpts

/-!
# Rows that chunks share

Captures may nest, so one row of a file may be selected by several of them.  Two guards keep it from
getting into an outline more than once: a text that has been kept is not kept again, and of the
chunks that start on one row only one is chosen.  What is left are captures that start on different
rows and select different texts.  If no two of these take a row in common, no two chunks do
(`shareNoRow_longestPerRow`).

Nothing else guards against nesting.  A comment inside an interface is kept with the interface, and
once more by itself.
-/

namespace SourceBundle.Outline

/-- The rows of the file on which the text kept of a capture stands. -/
def takenRows (strategy : Strategy) (rows : List Text) (c : Capture) : List Nat :=
  match keptText? strategy rows c with
  | none => []
  | some x => List.range' (firstRow strategy rows c) (Text.rows x).length

/-- A row of the file is among those from which the chunk is made: it is taken by a capture on the
start row of the chunk whose trimmed text is the content of the chunk. -/
def Contributes (strategy : Strategy) (rows : List Text) (captures : List Capture) (row : Nat)
    (chunk : Chunk) : Prop :=
  ∃ c ∈ captures, Selects strategy rows c chunk.content ∧ c.startRow = chunk.startRow ∧
    row ∈ takenRows strategy rows c

/-- No row contributes to two of the chunks. -/
def ShareNoRow (strategy : Strategy) (rows : List Text) (captures : List Capture)
    (chosen : List Chunk) : Prop :=
  chosen.Pairwise fun a b => ∀ i,
    ¬ (Contributes strategy rows captures i a ∧ Contributes strategy rows captures i b)

/-- No row is taken by two captures that start on different rows and whose trimmed texts differ. -/
def TakenOnce (strategy : Strategy) (rows : List Text) (captures : List Capture) : Prop :=
  ∀ c ∈ captures, ∀ d ∈ captures, c.startRow < d.startRow →
    (keptText? strategy rows c).map Text.trim ≠ (keptText? strategy rows d).map Text.trim →
      ∀ i ∈ takenRows strategy rows c, i ∉ takenRows strategy rows d

section

variable {strategy : Strategy} {rows : List Text} {captures : List Capture} {chunk : Chunk}

/-- Every chunk is made from some row. -/
theorem exists_contributes {emitted : List Text}
    (h : chunk ∈ chunksFrom strategy rows emitted captures) :
    ∃ i, Contributes strategy rows captures i chunk := by
  obtain ⟨c, hc, selects, start⟩ := exists_capture_of_mem_chunksFrom h
  obtain ⟨x, hx, -⟩ := Option.map_eq_some_iff.mp selects
  refine ⟨firstRow strategy rows c, c, hc, selects, start, ?_⟩
  have hpos : 0 < (Text.rows x).length := List.length_pos_iff.mpr (Text.pieces_ne_nil '\n' x)
  rw [takenRows, hx]
  exact List.mem_range'.mpr ⟨0, hpos, by simp⟩

/-- On a row that a capture takes stands a row of the text kept of it. -/
theorem exists_piece_of_mem_takenRows (hrows : ∀ row ∈ rows, '\n' ∉ row) {c : Capture} {i : Nat}
    (h : i ∈ takenRows strategy rows c) :
    ∃ x k row piece, keptText? strategy rows c = some x ∧ i = firstRow strategy rows c + k ∧
      (ruleRows strategy rows c)[k]? = some row ∧ piece ∈ Text.rows x ∧ piece <+: row := by
  unfold takenRows at h
  split at h
  · cases h
  · rename_i x hx
    obtain ⟨k, hk, rfl⟩ := List.mem_range'.mp h
    obtain ⟨row, hrow, hpre⟩ := linesUp_keptText? hrows hx k _ (List.getElem?_eq_getElem hk)
    exact ⟨x, k, row, _, hx, by rw [Nat.one_mul], hrow, List.getElem_mem hk, hpre⟩

/-- A row that contributes to a chunk begins with a row of its text. -/
theorem Contributes.exists_piece (hrows : ∀ row ∈ rows, '\n' ∉ row) {i : Nat}
    (h : Contributes strategy rows captures i chunk) :
    ∃ x row piece, chunk.content = Text.trim x ∧ rows[i]? = some row ∧ piece ∈ Text.rows x ∧
      piece <+: row := by
  obtain ⟨c, -, selects, -, htaken⟩ := h
  obtain ⟨x, k, row, piece, hx, rfl, hrow, hpiece, hpre⟩ :=
    exists_piece_of_mem_takenRows hrows htaken
  have hcontent : some (Text.trim x) = some chunk.content := by
    rw [← selects, hx, Option.map_some]
  exact ⟨x, row, piece, (Option.some.inj hcontent).symm, (getElem?_of_ruleRows hrow).1, hpiece, hpre⟩

end

/-- When captures that start on different rows and select different texts take different rows, no row
contributes to two of the chunks that are chosen.  Each of these is made from rows of the file. -/
theorem shareNoRow_longestPerRow {language : Language} {t : Text} {captures : List Capture}
    (once : TakenOnce (strategyFor language) (Text.rows t) captures) :
    ShareNoRow (strategyFor language) (Text.rows t) captures
        (longestPerRow (chunks (strategyFor language) t captures)) ∧
      ∀ chunk ∈ longestPerRow (chunks (strategyFor language) t captures),
        (∃ i, Contributes (strategyFor language) (Text.rows t) captures i chunk) ∧
        ∀ i, Contributes (strategyFor language) (Text.rows t) captures i chunk →
          ∃ x row piece, chunk.content = Text.trim x ∧ (Text.rows t)[i]? = some row ∧
            piece ∈ Text.rows x ∧ piece <+: row := by
  have different : ∀ a ∈ chunks (strategyFor language) t captures,
      ∀ b ∈ chunks (strategyFor language) t captures, a.content = b.content → a = b :=
    fun _ ha _ hb => List.inj_on_of_nodup_map (nodup_contents_chunksFrom [] _) ha hb
  have chosen := longestPerRow_subset (chunks (strategyFor language) t captures)
  constructor
  · refine (pairwise_longestPerRow _).imp_of_mem fun {a b} ha hb before => ?_
    rintro i ⟨⟨c, hc, selects, start, hi⟩, ⟨d, hd, selects', start', hi'⟩⟩
    refine once c hc d hd (start ▸ start' ▸ before) ?_ i hi hi'
    intro same
    have hcontent : a.content = b.content :=
      Option.some.inj (selects.symm.trans (same.trans selects'))
    rw [different a (chosen ha) b (chosen hb) hcontent] at before
    exact Nat.lt_irrefl _ before
  · intro chunk hchunk
    obtain ⟨i, c, hc, contributes⟩ := exists_contributes (chosen hchunk)
    refine ⟨⟨i, c, mem_inRowOrder.mp hc, contributes⟩, fun j hj => ?_⟩
    exact hj.exists_piece fun row => Text.newline_not_mem_of_mem_rows

/-! ## Nested captures -/

/-- A class with a method. -/
def countingClass : Text :=
  "class A \x7b\n  n = 0;\n  add(\n  ) \x7b\n    n = n + 1;\n  \x7d\n\x7d\n".toList

/-- What the grammar marks in `countingClass`. -/
def countingClassCaptures : List Capture :=
  [⟨"definition.class".toList, 0, 6, 1, none⟩, ⟨"definition.method".toList, 2, 5, 3, none⟩]

/-- The class is cut before its body, so the method inside takes other rows. -/
theorem shareNoRow_countingClass :
    TakenOnce .typeScript (Text.rows countingClass) countingClassCaptures ∧
      longestPerRow (chunks .typeScript countingClass countingClassCaptures) =
        [⟨"class A".toList, 0, 6⟩, ⟨"add(\n  )".toList, 2, 5⟩] ∧
      ShareNoRow .typeScript (Text.rows countingClass) countingClassCaptures
        (longestPerRow (chunks .typeScript countingClass countingClassCaptures)) := by
  have once : TakenOnce .typeScript (Text.rows countingClass) countingClassCaptures := by
    unfold TakenOnce
    decide +kernel
  exact ⟨once, by decide +kernel, (@shareNoRow_longestPerRow .typeScript _ _ once).1⟩

/-- An interface with a comment. -/
def notedInterface : Text := "interface S \x7b\n  // note\n  a: number;\n\x7d\n".toList

/-- What the grammar marks in `notedInterface`. -/
def notedInterfaceCaptures : List Capture :=
  [⟨"definition.interface".toList, 0, 3, 1, none⟩, ⟨"comment".toList, 1, 1, 9, none⟩]

/-- The row of the comment contributes to the chunk of the interface and to one of its own, and the
outline has it twice. -/
theorem shareNoRow_notedInterface :
    ofText .typeScript notedInterface notedInterfaceCaptures =
        "interface S \x7b\n  // note\n  a: number;\n\x7d\n:----\n// note".toList ∧
      ¬ ∀ (language : Language) (t : Text) (captures : List Capture),
        ShareNoRow (strategyFor language) (Text.rows t) captures
          (longestPerRow (chunks (strategyFor language) t captures)) := by
  refine ⟨by decide +kernel, fun all => ?_⟩
  have hchunks : longestPerRow (chunks .typeScript notedInterface notedInterfaceCaptures) =
      [⟨"interface S \x7b\n  // note\n  a: number;\n\x7d".toList, 0, 3⟩,
        ⟨"// note".toList, 1, 1⟩] := by decide +kernel
  have apart := all .typeScript notedInterface notedInterfaceCaptures
  rw [strategyFor, ShareNoRow, hchunks] at apart
  refine List.rel_of_pairwise_cons apart List.mem_cons_self 1 ⟨?_, ?_⟩
  · exact ⟨_, List.mem_cons_self, by unfold Selects; decide +kernel, rfl, by decide +kernel⟩
  · exact ⟨_, List.mem_cons_of_mem _ List.mem_cons_self, by unfold Selects; decide +kernel, rfl,
      by decide +kernel⟩

end SourceBundle.Outline
