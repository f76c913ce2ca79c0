import SourceBundle.Proofs.Text.Lines

/-!
# Rows of texts put together and trimmed

Where two texts meet, the last row of the one and the first row of the other become one row, and no
other row changes (`exists_rows_append`).  A line feed between them keeps all rows apart.

Trimming takes white space off, so it drops rows or takes white space off one of them.  A property
of rows that survives this holds of the rows of a trimmed text when it holds of those of the text
(`forall_rows_trim`).
-/

namespace SourceBundle.Text

variable {t row : Text}

/-! ## Putting together -/

/-- Where two texts meet, the last row of the one and the first row of the other make one row. -/
theorem exists_rows_append (u v : Text) :
    ∃ front last head tail, rows u = front ++ [last] ∧ rows v = head :: tail ∧
      rows (u ++ v) = front ++ (last ++ head) :: tail := by
  induction u with
  | nil =>
    obtain ⟨head, tail, hv⟩ := exists_pieces_eq_cons '\n' v
    exact ⟨[], [], head, tail, rfl, hv, hv⟩
  | cons c u ih =>
    obtain ⟨front, last, head, tail, hu, hv, huv⟩ := ih
    by_cases hc : c = '\n'
    · subst hc
      refine ⟨[] :: front, last, head, tail, ?_, hv, ?_⟩
      · exact (pieces_cons_self u).trans (congrArg ([] :: ·) hu)
      · exact (pieces_cons_self (u ++ v)).trans (congrArg ([] :: ·) huv)
    · cases front with
      | nil =>
        exact ⟨[], c :: last, head, tail, pieces_cons_of_ne hc hu, hv, pieces_cons_of_ne hc huv⟩
      | cons first front =>
        exact ⟨(c :: first) :: front, last, head, tail, pieces_cons_of_ne hc hu, hv,
          pieces_cons_of_ne hc huv⟩

/-- A line feed between two texts keeps their rows apart. -/
theorem rows_append_newline (u v : Text) : rows (u ++ '\n' :: v) = rows u ++ rows v :=
  pieces_append u v

/-- Rows that meet inside a row make the texts on its two sides. -/
theorem unrows_append_cons (front : List Text) (lead row : Text) (rest : List Text) :
    unrows (front ++ (lead ++ row) :: rest) = unrows (front ++ [lead]) ++ unrows (row :: rest) := by
  induction front with
  | nil =>
    cases rest with
    | nil => rfl
    | cons next rest => simp [unrows, join]
  | cons first front ih =>
    have hwhole : unrows (first :: (front ++ (lead ++ row) :: rest)) =
        first ++ ['\n'] ++ unrows (front ++ (lead ++ row) :: rest) := join_cons (by simp)
    have hlead : unrows (first :: (front ++ [lead])) =
        first ++ ['\n'] ++ unrows (front ++ [lead]) := join_cons (by simp)
    rw [List.cons_append, List.cons_append, hwhole, hlead, ih, List.append_assoc (first ++ ['\n'])]

/-- The rows of a first part of a text are rows of the text, but that the last may be cut. -/
theorem exists_rows_of_prefix {u : Text} (h : u <+: t) :
    ∃ front last row, rows u = front ++ [last] ∧ front ++ [row] <+: rows t ∧ last <+: row := by
  obtain ⟨v, rfl⟩ := h
  obtain ⟨front, last, head, tail, hu, -, huv⟩ := exists_rows_append u v
  refine ⟨front, last, last ++ head, hu, ?_, List.prefix_append last head⟩
  rw [huv]
  exact ⟨tail, (List.append_cons front (last ++ head) tail).symm⟩

/-- Rows of texts joined with a separator between line feeds are rows of the texts, or the
separator. -/
theorem mem_rows_join {between : Text} (hbetween : '\n' ∉ between) {ts : List Text} (hne : ts ≠ [])
    (h : row ∈ rows (join ('\n' :: between ++ ['\n']) ts)) :
    row = between ∨ ∃ t ∈ ts, row ∈ rows t := by
  induction ts with
  | nil => exact absurd rfl hne
  | cons t ts ih =>
    by_cases hts : ts = []
    · rw [hts] at h
      exact .inr ⟨t, List.mem_cons_self, h⟩
    · have hrows : rows (join ('\n' :: between ++ ['\n']) (t :: ts)) =
          rows t ++ between :: rows (join ('\n' :: between ++ ['\n']) ts) := by
        have hjoin : join ('\n' :: between ++ ['\n']) (t :: ts) =
            t ++ '\n' :: (between ++ '\n' :: join ('\n' :: between ++ ['\n']) ts) := by
          rw [join_cons hts]
          simp
        rw [hjoin, rows_append_newline]
        exact congrArg (rows t ++ ·) (pieces_append_cons hbetween _)
      rw [hrows, List.mem_append, List.mem_cons] at h
      rcases h with h | rfl | h
      · exact .inr ⟨t, List.mem_cons_self, h⟩
      · exact .inl rfl
      · rcases ih hts h with rfl | ⟨t', ht', h⟩
        · exact .inl rfl
        · exact .inr ⟨t', List.mem_cons_of_mem t ht', h⟩

/-! ## Trimming -/

/-- White space stands behind a text without white space at its end. -/
theorem exists_eq_trimEnd_append (t : Text) : ∃ w, allBlank w = true ∧ t = trimEnd t ++ w := by
  refine ⟨(t.reverse.takeWhile isBlank).reverse, ?_, ?_⟩
  · rw [allBlank, List.all_reverse, List.all_takeWhile]
  · rw [trimEnd, ← List.reverse_append, List.takeWhile_append_dropWhile, List.reverse_reverse]

theorem exists_eq_append_trimStart (t : Text) : ∃ w, allBlank w = true ∧ t = w ++ trimStart t :=
  ⟨t.takeWhile isBlank, List.all_takeWhile, List.takeWhile_append_dropWhile.symm⟩

theorem trimEnd_isPrefix (t : Text) : trimEnd t <+: t := by
  obtain ⟨w, -, ht⟩ := exists_eq_trimEnd_append t
  exact ⟨w, ht.symm⟩

theorem trimEnd_trimEnd (t : Text) : trimEnd (trimEnd t) = trimEnd t := by
  obtain ⟨w, hw, ht⟩ := exists_eq_trimEnd_append t
  conv_rhs => rw [ht]
  rw [trimEnd_append_blank hw]

theorem trimEnd_ne_nil (h : allBlank t = false) : trimEnd t ≠ [] := by
  intro hnil
  obtain ⟨w, hw, ht⟩ := exists_eq_trimEnd_append t
  rw [hnil, List.nil_append] at ht
  rw [ht, hw] at h
  cases h

/-- The texts before two occurrences of a solid character in one text are equal if they are equal but
for white space at their ends. -/
theorem eq_of_append_cons_eq {c : Char} (hc : isBlank c = false) {u v u' v' : Text}
    (h : u ++ c :: v = u' ++ c :: v') (htrim : trimEnd u = trimEnd u') : u = u' := by
  -- What the longer of the two has behind the shorter one begins with the character.
  have shorter : ∀ {x w : Text}, trimEnd x = trimEnd (x ++ w) → w.head? = some c → False := by
    intro x w hxw hw
    obtain ⟨rest, rfl⟩ := List.head?_eq_some_iff.mp hw
    have hsolid : allBlank (c :: rest) = false := by simp [allBlank, hc]
    have hlonger := congrArg List.length (trimEnd_append hsolid x)
    have hpos := List.length_pos_iff.mpr (trimEnd_ne_nil hsolid)
    have hle := (trimEnd_isPrefix x).length_le
    rw [← hxw, List.length_append] at hlonger
    omega
  rcases List.append_eq_append_iff.mp h with ⟨w, rfl, hw⟩ | ⟨w, rfl, hw⟩
  · cases w with
    | nil => rw [List.append_nil]
    | cons d w =>
      have hd : (d :: w).head? = some c := by rw [(List.cons.inj hw).1]; rfl
      exact (shorter htrim hd).elim
  · cases w with
    | nil => rw [List.append_nil]
    | cons d w =>
      have hd : (d :: w).head? = some c := by rw [(List.cons.inj hw).1]; rfl
      exact (shorter htrim.symm hd).elim

/-- Trimming takes off what trimming at the end alone does. -/
theorem trim_trimEnd (t : Text) : trim (trimEnd t) = trim t := by
  obtain ⟨w, hw, ht⟩ := exists_eq_trimEnd_append t
  have hwNil : w.dropWhile isBlank = [] := by
    rw [List.dropWhile_eq_nil_iff]
    simpa [allBlank] using hw
  have hstart : trimStart t = if (trimStart (trimEnd t)).isEmpty then []
      else trimStart (trimEnd t) ++ w := by
    conv_lhs => rw [ht, trimStart, List.dropWhile_append, hwNil]
    rfl
  rw [trim, trim, hstart]
  split
  · rename_i hempty
    rw [List.isEmpty_iff.mp hempty]
  · rw [trimEnd_append_blank hw]

section Kept

variable {P : Text → Prop}

theorem forall_rows_trimEnd (hend : ∀ u w, allBlank w = true → P (u ++ w) → P u)
    (h : ∀ row ∈ rows t, P row) : ∀ row ∈ rows (trimEnd t), P row := by
  obtain ⟨w, hw, ht⟩ := exists_eq_trimEnd_append t
  obtain ⟨front, last, head, tail, hu, hv, huv⟩ := exists_rows_append (trimEnd t) w
  have hhead : allBlank head = true := by
    have hstretch : head <:+: w := infix_of_mem_pieces (hv ▸ List.mem_cons_self)
    rw [allBlank, List.all_eq_true] at hw ⊢
    exact fun c hc => hw c (hstretch.subset hc)
  rw [← ht] at huv
  rw [huv] at h
  rw [hu]
  intro row hrow
  rcases List.mem_append.mp hrow with hrow | hrow
  · exact h row (List.mem_append_left _ hrow)
  · rw [List.mem_singleton.mp hrow]
    exact hend last head hhead (h _ (List.mem_append_right _ List.mem_cons_self))

theorem forall_rows_trimStart (hstart : ∀ w u, allBlank w = true → P (w ++ u) → P u)
    (h : ∀ row ∈ rows t, P row) : ∀ row ∈ rows (trimStart t), P row := by
  obtain ⟨w, hw, ht⟩ := exists_eq_append_trimStart t
  obtain ⟨front, last, head, tail, hu, hv, huv⟩ := exists_rows_append w (trimStart t)
  have hlast : allBlank last = true := by
    have hstretch : last <:+: w :=
      infix_of_mem_pieces (hu ▸ List.mem_append_right front List.mem_cons_self)
    rw [allBlank, List.all_eq_true] at hw ⊢
    exact fun c hc => hw c (hstretch.subset hc)
  rw [← ht] at huv
  rw [huv] at h
  rw [hv]
  intro row hrow
  rcases List.mem_cons.mp hrow with rfl | hrow
  · exact hstart last row hlast (h _ (List.mem_append_right _ List.mem_cons_self))
  · exact h row (List.mem_append_right _ (List.mem_cons_of_mem _ hrow))

/-- What holds of the rows of a text, and still holds of a row from which white space at an end is
taken, holds of the rows of the trimmed text. -/
theorem forall_rows_trim (hend : ∀ u w, allBlank w = true → P (u ++ w) → P u)
    (hstart : ∀ w u, allBlank w = true → P (w ++ u) → P u) (h : ∀ row ∈ rows t, P row) :
    ∀ row ∈ rows (trim t), P row :=
  forall_rows_trimEnd hend (forall_rows_trimStart hstart h)

end Kept

end SourceBundle.Text
