import SourceBundle.Proofs.Text.Rows

/-!
# Line ends of a part of a text

Trimming the ends of lines works row by row, so what it makes of a part of a text can be found again
in what it makes of the text, as long as no white space at an end of the part belongs to the end of a
line.  A part that begins with a solid character is found at the end (`trimLineEnds_isSuffix`), one
that ends with a solid character at the beginning (`trimLineEnds_isPrefix`).
-/

namespace SourceBundle.Text

theorem trimEnd_dropReturn (row : Text) : trimEnd (dropReturn row) = trimEnd row := by
  unfold dropReturn
  cases h : before? ['\r'] row with
  | none => rfl
  | some line =>
    rw [before?_eq_some_iff.mp h, trimEnd_append_blank (by decide)]
    rfl

/-- The lines that begin on the rows up to one that is not empty are these rows. -/
theorem map_trimEnd_readLines {row : Text} (hrow : row ≠ []) (front rest : List Text) :
    (readLines (front ++ row :: rest)).map trimEnd =
      front.map trimEnd ++ trimEnd row :: (readLines rest).map trimEnd := by
  induction front with
  | nil =>
    cases rest with
    | nil =>
      have hlast : readLines [row] = [row] := if_neg (by simpa using hrow)
      rw [List.nil_append, hlast]
      rfl
    | cons next rest =>
      rw [List.nil_append, readLines, List.map_cons, trimEnd_dropReturn]
      · rfl
      · simp
  | cons first front ih =>
    rw [List.cons_append, readLines, List.map_cons, trimEnd_dropReturn, ih]
    · rfl
    · simp

/-- The trimmed line of a row goes as far as a solid character in it, and perhaps further. -/
theorem exists_trimEnd_append_cons {c : Char} (hc : isBlank c = false) (lead t : Text) :
    ∃ w, trimEnd (lead ++ c :: t) = lead ++ [c] ++ w := by
  by_cases ht : allBlank t = true
  · refine ⟨[], ?_⟩
    rw [List.append_cons, trimEnd_append_blank ht, trimEnd_concat hc, List.append_nil]
  · refine ⟨trimEnd t, ?_⟩
    rw [List.append_cons, trimEnd_append (Bool.eq_false_iff.mpr ht)]

theorem ne_newline_of_solid {c : Char} (hc : isBlank c = false) : c ≠ '\n' := by
  rintro rfl
  cases hc

/-- With its line ends trimmed, a text that begins with a solid character ends whatever ends with it. -/
theorem trimLineEnds_isSuffix {c : Char} (hc : isBlank c = false) (u v : Text) :
    trimLineEnds (c :: v) <:+ trimLineEnds (u ++ c :: v) := by
  obtain ⟨front, last, head, tail, -, hv, huv⟩ := exists_rows_append u (c :: v)
  obtain ⟨piece, rest, hpiece⟩ := exists_pieces_eq_cons '\n' v
  have hrows : rows (c :: v) = (c :: piece) :: rest :=
    pieces_cons_of_ne (ne_newline_of_solid hc) hpiece
  obtain ⟨rfl, rfl⟩ := List.cons.inj (hv.symm.trans hrows)
  have hsolid : allBlank (c :: piece) = false := by simp [allBlank, hc]
  refine ⟨unrows (front.map trimEnd ++ [last]), ?_⟩
  have hpart := map_trimEnd_readLines (List.cons_ne_nil c piece) [] tail
  rw [trimLineEnds, trimLineEnds, lines, lines, huv, hrows,
    map_trimEnd_readLines (by simp), trimEnd_append hsolid, unrows_append_cons]
  exact congrArg (unrows (front.map trimEnd ++ [last]) ++ unrows ·) hpart

/-- With its line ends trimmed, a text that ends with a solid character begins whatever begins with
it. -/
theorem trimLineEnds_isPrefix {c : Char} (hc : isBlank c = false) (u v : Text) :
    trimLineEnds (u ++ [c]) <+: trimLineEnds (u ++ c :: v) := by
  obtain ⟨piece, rest, hpiece⟩ := exists_pieces_eq_cons '\n' v
  have hnewline := ne_newline_of_solid hc
  obtain ⟨front, last, head, tail, hu, hv, huv⟩ := exists_rows_append u (c :: v)
  obtain ⟨rfl, rfl⟩ := List.cons.inj (hv.symm.trans (pieces_cons_of_ne hnewline hpiece))
  obtain ⟨front', last', head', tail', hu', hc', huc⟩ := exists_rows_append u [c]
  obtain ⟨rfl, rfl⟩ := List.cons.inj (hc'.symm.trans (pieces_of_not_mem (by simpa using hnewline.symm)))
  obtain ⟨rfl, hlast⟩ := List.append_inj' (hu.symm.trans hu') rfl
  obtain rfl : last = last' := List.singleton_inj.mp hlast
  obtain ⟨w, hw⟩ := exists_trimEnd_append_cons hc last piece
  have hwhole := unrows_append_cons (front.map trimEnd) (last ++ [c]) w
    ((readLines tail).map trimEnd)
  refine ⟨unrows (w :: (readLines tail).map trimEnd), ?_⟩
  rw [trimLineEnds, trimLineEnds, lines, lines, huv, huc, map_trimEnd_readLines (by simp),
    map_trimEnd_readLines (by simp), hw, trimEnd_concat hc, hwhole]
  rfl

/-- With its line ends trimmed, a text between two solid characters is a stretch of whatever it is a
stretch of. -/
theorem trimLineEnds_isInfix {c d : Char} (hc : isBlank c = false) (hd : isBlank d = false)
    (u t v : Text) :
    trimLineEnds (c :: t ++ [d]) <:+: trimLineEnds (u ++ (c :: t ++ [d]) ++ v) := by
  have hfront : trimLineEnds (c :: t ++ [d]) <+: trimLineEnds (c :: (t ++ d :: v)) :=
    trimLineEnds_isPrefix hd (c :: t) v
  have hback : trimLineEnds (c :: (t ++ d :: v)) <:+ trimLineEnds (u ++ c :: (t ++ d :: v)) :=
    trimLineEnds_isSuffix hc u (t ++ d :: v)
  have hsame : u ++ (c :: t ++ [d]) ++ v = u ++ c :: (t ++ d :: v) := by simp
  rw [hsame]
  exact hfront.isInfix.trans hback.isInfix

/-! ## Solid characters -/

theorem count_trimEnd {c : Char} (hc : isBlank c = false) (t : Text) :
    (trimEnd t).count c = t.count c := by
  obtain ⟨w, hw, ht⟩ := exists_eq_trimEnd_append t
  have hnone : w.count c = 0 := by
    refine List.count_eq_zero.mpr fun hmem => ?_
    rw [List.all_eq_true.mp hw c hmem] at hc
    cases hc
  conv_rhs => rw [ht, List.count_append, hnone, Nat.add_zero]

theorem count_unrows_cons {c : Char} (hc : c ≠ '\n') (row : Text) (rest : List Text) :
    (unrows (row :: rest)).count c = row.count c + (unrows rest).count c := by
  cases rest with
  | nil => rfl
  | cons next rest =>
    have hjoin : unrows (row :: next :: rest) = row ++ ['\n'] ++ unrows (next :: rest) := rfl
    rw [hjoin, List.count_append, List.count_append, List.count_singleton,
      if_neg (by simpa using hc.symm), Nat.add_zero]

/-- Trimming line ends leaves every solid character. -/
theorem count_trimLineEnds {c : Char} (hc : isBlank c = false) (t : Text) :
    (trimLineEnds t).count c = t.count c := by
  have hline := ne_newline_of_solid hc
  have hrows : ∀ rs, (unrows ((readLines rs).map trimEnd)).count c = (unrows rs).count c := by
    intro rs
    induction rs with
    | nil => rfl
    | cons row rest ih =>
      cases rest with
      | nil =>
        by_cases hrow : row = []
        · rw [hrow]
          rfl
        · have hlast : readLines [row] = [row] := if_neg (by simpa using hrow)
          rw [hlast]
          exact count_trimEnd hc row
      | cons next rest =>
        rw [readLines, List.map_cons, trimEnd_dropReturn, count_unrows_cons hline,
          count_unrows_cons hline, ih, count_trimEnd hc]
        simp
  rw [trimLineEnds, lines, hrows, unrows_rows]

end SourceBundle.Text
