import SourceBundle.Outline.Basic
import SourceBundle.Proofs.Sorting

/-!
# The rows of an outline

An outline does not keep a text twice.  The captures pass by in the order of their rows together
with the trimmed texts kept so far, so whether a capture gets a chunk depends on all captures
before it.  What comes out has a description without that history: a capture gets a chunk exactly
if no capture before it has the same trimmed text, and since they are in the order of their rows
the row of a chunk is the least one with its text.

Every selected text therefore appears in the outline, and exactly once.  A row does not appear
when its text has appeared before: of two methods with one header in two `impl` blocks the second
is left out.
-/

namespace SourceBundle.Outline

variable {strategy : Strategy} {rows : List Text}

/-! ## One capture -/

/-- The capture's trimmed text is `content`. -/
def Selects (strategy : Strategy) (rows : List Text) (c : Capture) (content : Text) : Prop :=
  (keptText? strategy rows c).map Text.trim = some content

theorem Selects.unique {c : Capture} {u v : Text} (hu : Selects strategy rows c u)
    (hv : Selects strategy rows c v) : u = v :=
  Option.some.inj (hu.symm.trans hv)

/-- A capture is passed over if what it selects, if anything, has been kept before; else it gets a
chunk, and its text is kept from there on. -/
theorem chunksFrom_cons (emitted : List Text) (c : Capture) (rest : List Capture) :
    ((∀ content, Selects strategy rows c content → content ∈ emitted) ∧
      chunksFrom strategy rows emitted (c :: rest) = chunksFrom strategy rows emitted rest) ∨
    ∃ content, Selects strategy rows c content ∧ content ∉ emitted ∧
      chunksFrom strategy rows emitted (c :: rest) =
        Chunk.spanning content c.startRow c.endRow ::
          chunksFrom strategy rows (content :: emitted) rest := by
  cases kept : keptText? strategy rows c with
  | none =>
    refine .inl ⟨?_, by simp only [chunksFrom, kept]⟩
    intro content selects
    rw [Selects, kept] at selects
    cases selects
  | some x =>
    have own : Selects strategy rows c (Text.trim x) := by rw [Selects, kept, Option.map_some]
    by_cases old : Text.trim x ∈ emitted
    · have seen : emitted.contains (Text.trim x) = true := List.contains_iff_mem.mpr old
      refine .inl ⟨?_, by simp only [chunksFrom, kept, seen, if_true]⟩
      intro content selects
      exact selects.unique own ▸ old
    · have unseen : emitted.contains (Text.trim x) = false := by simpa using old
      refine .inr ⟨Text.trim x, own, old, ?_⟩
      simp only [chunksFrom, kept, unseen, Bool.false_eq_true, if_false]

/-! ## The run over the captures -/

theorem content_not_mem_of_mem_chunksFrom {emitted : List Text} {captures : List Capture}
    {chunk : Chunk} (h : chunk ∈ chunksFrom strategy rows emitted captures) :
    chunk.content ∉ emitted := by
  induction captures generalizing emitted with
  | nil => cases h
  | cons c rest ih =>
    rcases chunksFrom_cons emitted c rest with ⟨-, step⟩ | ⟨content, -, new, step⟩
    · rw [step] at h
      exact ih h
    · rw [step] at h
      rcases List.mem_cons.mp h with rfl | h
      · exact new
      · exact fun old => ih h (List.mem_cons_of_mem content old)

/-- A chunk comes from a capture that selects its content. -/
theorem exists_capture_of_mem_chunksFrom {emitted : List Text} {captures : List Capture}
    {chunk : Chunk} (h : chunk ∈ chunksFrom strategy rows emitted captures) :
    ∃ c ∈ captures, Selects strategy rows c chunk.content ∧ c.startRow = chunk.startRow := by
  induction captures generalizing emitted with
  | nil => cases h
  | cons c rest ih =>
    have later : ∀ emitted', chunk ∈ chunksFrom strategy rows emitted' rest →
        ∃ d ∈ c :: rest, Selects strategy rows d chunk.content ∧ d.startRow = chunk.startRow := by
      intro emitted' h
      obtain ⟨d, hd, source⟩ := ih h
      exact ⟨d, List.mem_cons_of_mem c hd, source⟩
    rcases chunksFrom_cons emitted c rest with ⟨-, step⟩ | ⟨content, own, -, step⟩
    · rw [step] at h
      exact later emitted h
    · rw [step] at h
      rcases List.mem_cons.mp h with rfl | h
      · exact ⟨c, List.mem_cons_self, own, rfl⟩
      · exact later (content :: emitted) h

/-- Of the captures in the order of their rows, no one above a chunk selects its content. -/
theorem startRow_le_of_mem_chunksFrom {emitted : List Text} {captures : List Capture}
    (sorted : captures.Pairwise fun a b => a.startRow ≤ b.startRow) {chunk : Chunk}
    (h : chunk ∈ chunksFrom strategy rows emitted captures) {d : Capture} (hd : d ∈ captures)
    (selects : Selects strategy rows d chunk.content) : chunk.startRow ≤ d.startRow := by
  induction captures generalizing emitted with
  | nil => cases h
  | cons c rest ih =>
    obtain ⟨hc, hrest⟩ := List.pairwise_cons.mp sorted
    -- The text of a chunk of the rest is new behind `c`, so `c` has not selected it.
    rcases chunksFrom_cons emitted c rest with ⟨kept, step⟩ | ⟨content, own, -, step⟩
    · rw [step] at h
      rcases List.mem_cons.mp hd with rfl | hd
      · exact absurd (kept _ selects) (content_not_mem_of_mem_chunksFrom h)
      · exact ih hrest h hd
    · rw [step] at h
      rcases List.mem_cons.mp h with rfl | hlater
      · rcases List.mem_cons.mp hd with rfl | hd
        · exact Nat.le_refl _
        · exact hc d hd
      · rcases List.mem_cons.mp hd with rfl | hd
        · have old : chunk.content ∈ content :: emitted :=
            selects.unique own ▸ List.mem_cons_self
          exact absurd old (content_not_mem_of_mem_chunksFrom hlater)
        · exact ih hrest hlater hd

/-- A new text that is selected is the content of a chunk. -/
theorem exists_chunk_of_selects {emitted : List Text} {captures : List Capture} {d : Capture}
    (hd : d ∈ captures) {content : Text} (selects : Selects strategy rows d content)
    (new : content ∉ emitted) :
    ∃ chunk ∈ chunksFrom strategy rows emitted captures, chunk.content = content := by
  induction captures generalizing emitted with
  | nil => cases hd
  | cons c rest ih =>
    rcases chunksFrom_cons emitted c rest with ⟨kept, step⟩ | ⟨first, own, -, step⟩
    · rw [step]
      rcases List.mem_cons.mp hd with rfl | hd
      · exact absurd (kept content selects) new
      · exact ih hd new
    · rw [step]
      by_cases same : content = first
      · exact ⟨_, List.mem_cons_self, same.symm⟩
      · have hrest : d ∈ rest := by
          rcases List.mem_cons.mp hd with rfl | hd
          · exact absurd (selects.unique own) same
          · exact hd
        have unseen : content ∉ first :: emitted := fun h =>
          (List.mem_cons.mp h).elim same new
        obtain ⟨chunk, member, eq⟩ := ih hrest unseen
        exact ⟨chunk, List.mem_cons_of_mem _ member, eq⟩

/-- No two chunks have the same content. -/
theorem nodup_contents_chunksFrom (emitted : List Text) (captures : List Capture) :
    ((chunksFrom strategy rows emitted captures).map Chunk.content).Nodup := by
  induction captures generalizing emitted with
  | nil => exact List.nodup_nil
  | cons c rest ih =>
    rcases chunksFrom_cons emitted c rest with ⟨-, step⟩ | ⟨content, -, -, step⟩
    · rw [step]
      exact ih emitted
    · rw [step, List.map_cons, List.nodup_cons]
      refine ⟨?_, ih (content :: emitted)⟩
      intro again
      obtain ⟨chunk, member, eq⟩ := List.mem_map.mp again
      exact content_not_mem_of_mem_chunksFrom member (eq ▸ List.mem_cons_self)

/-! ## All captures of a file -/

theorem mem_inRowOrder {captures : List Capture} {c : Capture} :
    c ∈ inRowOrder captures ↔ c ∈ captures :=
  (sortBy_perm _ captures).mem_iff

theorem pairwise_inRowOrder (captures : List Capture) :
    (inRowOrder captures).Pairwise fun a b => a.startRow ≤ b.startRow :=
  pairwise_sortBy_key Capture.startRow captures

/-- The rows on which chunks of a file start are the rows of the captures whose text is selected
for none on an earlier row.  Every selected text is, trimmed, the content of a chunk, and of only
one. -/
theorem startRows_chunks (language : Language) (t : Text) (captures : List Capture) :
    (∀ row, (∃ chunk ∈ chunks (strategyFor language) t captures, chunk.startRow = row) ↔
      ∃ c ∈ captures, c.startRow = row ∧
        ∃ content, Selects (strategyFor language) (Text.rows t) c content ∧
          ∀ d ∈ captures, Selects (strategyFor language) (Text.rows t) d content →
            row ≤ d.startRow) ∧
    (∀ c ∈ captures, ∀ content, Selects (strategyFor language) (Text.rows t) c content →
      ∃ chunk ∈ chunks (strategyFor language) t captures,
        chunk.content = content ∧ chunk.startRow ≤ c.startRow) ∧
    ((chunks (strategyFor language) t captures).map Chunk.content).Nodup := by
  have sorted := pairwise_inRowOrder captures
  have found : ∀ c ∈ captures, ∀ content,
      Selects (strategyFor language) (Text.rows t) c content →
      ∃ chunk ∈ chunks (strategyFor language) t captures,
        chunk.content = content ∧ chunk.startRow ≤ c.startRow := by
    intro c hc content selects
    have member := mem_inRowOrder.mpr hc
    obtain ⟨chunk, hchunk, rfl⟩ := exists_chunk_of_selects member selects List.not_mem_nil
    exact ⟨chunk, hchunk, rfl, startRow_le_of_mem_chunksFrom sorted hchunk member selects⟩
  refine ⟨?_, found, nodup_contents_chunksFrom [] (inRowOrder captures)⟩
  intro row
  constructor
  · rintro ⟨chunk, hchunk, rfl⟩
    obtain ⟨c, hc, selects, start⟩ := exists_capture_of_mem_chunksFrom hchunk
    refine ⟨c, mem_inRowOrder.mp hc, start, chunk.content, selects, ?_⟩
    intro d hd selects'
    exact startRow_le_of_mem_chunksFrom sorted hchunk (mem_inRowOrder.mpr hd) selects'
  · rintro ⟨c, hc, rfl, content, selects, least⟩
    obtain ⟨chunk, hchunk, rfl, le⟩ := found c hc content selects
    obtain ⟨d, hd, selects', start⟩ := exists_capture_of_mem_chunksFrom hchunk
    have ge := least d (mem_inRowOrder.mp hd) selects'
    exact ⟨chunk, hchunk, Nat.le_antisymm le (start ▸ ge)⟩

/-! ## Two methods with one header -/

/-- Two `impl` blocks, each with a method `len`. -/
def twinMethods : Text :=
  ("impl A \x7b\n    fn len(&self) -> usize \x7b\n        1\n    \x7d\n\x7d\n" ++
    "impl B \x7b\n    fn len(&self) -> usize \x7b\n        2\n    \x7d\n\x7d\n").toList

/-- What the grammar marks in `twinMethods`. -/
def twinMethodCaptures : List Capture :=
  [⟨"definition.impl".toList, 0, 4, 1, none⟩, ⟨"name.definition.impl".toList, 0, 0, 6, none⟩,
   ⟨"definition.function".toList, 1, 3, 5, none⟩,
   ⟨"name.definition.function".toList, 1, 1, 10, none⟩,
   ⟨"definition.impl".toList, 5, 9, 1, none⟩, ⟨"name.definition.impl".toList, 5, 5, 6, none⟩,
   ⟨"definition.function".toList, 6, 8, 5, none⟩,
   ⟨"name.definition.function".toList, 6, 6, 10, none⟩]

/-- The second method selects its header but starts no chunk. -/
theorem startRows_chunks_twinMethods :
    ¬ ∀ (language : Language) (t : Text) (captures : List Capture) (row : Nat),
      (∃ chunk ∈ chunks (strategyFor language) t captures, chunk.startRow = row) ↔
        ∃ c ∈ captures, c.startRow = row ∧
          (keptText? (strategyFor language) (Text.rows t) c).isSome := by
  intro all
  have selected : ∃ c ∈ twinMethodCaptures, c.startRow = 6 ∧
      (keptText? (strategyFor .rust) (Text.rows twinMethods) c).isSome := by decide +kernel
  have lost : ¬ ∃ chunk ∈ chunks (strategyFor .rust) twinMethods twinMethodCaptures,
      chunk.startRow = 6 := by decide +kernel
  exact lost ((all .rust twinMethods twinMethodCaptures 6).mpr selected)

end SourceBundle.Outline
