import Mathlib.Data.List.ModifyLast
import SourceBundle.Proofs.Text.Rows

/-!
# Texts without blank rows

Dropping blank lines keeps the solid rows of a text, those with a character that is no white space.
How lines end does not matter for it: a carriage return in front of a line feed belongs to the end of
a line, and without such returns the lines of a text are its rows, but for an empty last row, which
is not solid (`rows_withoutReturns`).

When no row is blank, white space at the start of the text is at the start of the first row, and white
space at its end is at the end of the last row.  So trimming the text trims these two rows, which may
be one, and no other (`trim_unrows`).
-/

namespace SourceBundle.Text

variable {t row : Text} {rs : List Text}

/-! ## Rows and line ends -/

/-- The text without the carriage returns that stand right in front of a line feed. -/
def withoutReturns : Text → Text
  | [] => []
  | c :: t => if c = '\r' ∧ t.head? = some '\n' then withoutReturns t else c :: withoutReturns t

theorem withoutReturns_cons {c : Char} (h : c ≠ '\r' ∨ t.head? ≠ some '\n') :
    withoutReturns (c :: t) = c :: withoutReturns t := by
  rw [withoutReturns, if_neg fun hboth => h.elim (fun hc => hc hboth.1) fun ht => ht hboth.2]

theorem withoutReturns_of_not_mem (h : '\n' ∉ t) : withoutReturns t = t := by
  induction t with
  | nil => rfl
  | cons c t ih =>
    have ht : '\n' ∉ t := List.not_mem_of_not_mem_cons h
    have hhead : t.head? ≠ some '\n' := fun hhead => ht (List.mem_of_head? hhead)
    rw [withoutReturns_cons (.inr hhead), ih ht]

theorem dropReturn_cons {c : Char} (h : c ≠ '\r' ∨ row ≠ []) :
    dropReturn (c :: row) = c :: dropReturn row := by
  cases hrow : before? ['\r'] row with
  | some line =>
    have hcons : before? ['\r'] (c :: row) = some (c :: line) := by
      rw [before?_eq_some_iff, before?_eq_some_iff.mp hrow, List.cons_append]
    rw [dropReturn, dropReturn, hrow, hcons]
    rfl
  | none =>
    have hcons : before? ['\r'] (c :: row) = none := by
      refine Option.eq_none_iff_forall_ne_some.mpr fun line hline => ?_
      rw [before?_eq_some_iff] at hline
      cases line with
      | nil =>
        obtain ⟨rfl, rfl⟩ := List.cons.inj hline
        exact h.elim (fun hc => hc rfl) fun hne => hne rfl
      | cons d line =>
        rw [before?_eq_some_iff.mpr (List.cons.inj hline).2] at hrow
        cases hrow
    rw [dropReturn, dropReturn, hrow, hcons]
    rfl

/-- The return in front of the first line feed is the one that the first row ends with. -/
theorem withoutReturns_append_newline (h : '\n' ∉ row) (t : Text) :
    withoutReturns (row ++ '\n' :: t) = dropReturn row ++ '\n' :: withoutReturns t := by
  induction row with
  | nil => exact withoutReturns_cons (.inl (by decide))
  | cons c row ih =>
    have hrow := ih (List.not_mem_of_not_mem_cons h)
    by_cases hreturn : c = '\r' ∧ row = []
    · obtain ⟨rfl, rfl⟩ := hreturn
      exact hrow
    · have hc : c ≠ '\r' ∨ row ≠ [] := not_and_or.mp hreturn
      have hhead : c ≠ '\r' ∨ (row ++ '\n' :: t).head? ≠ some '\n' := by
        refine hc.imp_right fun hne hhead => ?_
        rw [List.head?_append_of_ne_nil row hne] at hhead
        exact h (List.mem_cons_of_mem c (List.mem_of_head? hhead))
      rw [List.cons_append, withoutReturns_cons hhead, hrow, dropReturn_cons hc, List.cons_append]

theorem readLines_cons {rest : List Text} (h : rest ≠ []) :
    readLines (row :: rest) = dropReturn row :: readLines rest := by
  obtain ⟨next, more, rfl⟩ := List.exists_cons_of_ne_nil h
  rw [readLines]
  exact List.cons_ne_nil next more

/-- Without the returns at line ends, the rows of a text are its lines, but for an empty last row. -/
theorem rows_withoutReturns_unrows {rs : List Text} (hne : rs ≠ []) (h : ∀ row ∈ rs, '\n' ∉ row) :
    rows (withoutReturns (unrows rs)) = readLines rs ∨
      rows (withoutReturns (unrows rs)) = readLines rs ++ [[]] := by
  induction rs with
  | nil => exact absurd rfl hne
  | cons row rest ih =>
    obtain ⟨hrow, hrest⟩ := List.forall_mem_cons.mp h
    by_cases hnil : rest = []
    · have hsingle : rows (withoutReturns (unrows (row :: rest))) = [row] := by
        rw [hnil, unrows, join, withoutReturns_of_not_mem hrow, rows, pieces_of_not_mem hrow]
      rw [hsingle, hnil]
      cases row with
      | nil => exact .inr rfl
      | cons c row => exact .inl rfl
    · have hline : '\n' ∉ dropReturn row := fun hmem => hrow ((dropReturn_sublist row).subset hmem)
      have hrows : rows (withoutReturns (unrows (row :: rest))) =
          dropReturn row :: rows (withoutReturns (unrows rest)) := by
        rw [unrows, join_cons hnil, List.append_assoc, List.singleton_append,
          withoutReturns_append_newline hrow, rows, pieces_append_cons hline]
        rfl
      rw [hrows, readLines_cons hnil]
      exact (ih hnil hrest).imp (congrArg (dropReturn row :: ·)) (congrArg (dropReturn row :: ·))

theorem rows_withoutReturns (t : Text) :
    rows (withoutReturns t) = lines t ∨ rows (withoutReturns t) = lines t ++ [[]] := by
  have hne : rows t ≠ [] := pieces_ne_nil '\n' t
  have hrows := rows_withoutReturns_unrows hne fun row => newline_not_mem_of_mem_rows
  rwa [unrows_rows] at hrows

/-! ## Solid rows -/

/-- The rows of a text that are not blank, each without the one carriage return that may stand in
front of its line feed. -/
def solidRows (t : Text) : List Text :=
  (rows (withoutReturns t)).filter fun row => !allBlank row

theorem dropBlankLines_eq (t : Text) : dropBlankLines t = unrows (solidRows t) := by
  have hlines : (lines t).filter (fun row => !allBlank row) = solidRows t := by
    rw [solidRows]
    rcases rows_withoutReturns t with hrows | hrows
    · rw [hrows]
    · rw [hrows, List.filter_append]
      exact (List.append_nil _).symm
  rw [dropBlankLines, hlines]

theorem allBlank_of_mem_solidRows (h : row ∈ solidRows t) : allBlank row = false := by
  simpa using (List.mem_filter.mp h).2

theorem newline_not_mem_of_mem_solidRows (h : row ∈ solidRows t) : '\n' ∉ row :=
  newline_not_mem_of_mem_rows (List.mem_filter.mp h).1

/-! ## Trimming a text of solid rows -/

/-- The first row without the white space at its start, the last one without the white space at its
end. -/
def trimOuter (rs : List Text) : List Text := (rs.modifyHead trimStart).modifyLast trimEnd

theorem allBlank_append (u v : Text) : allBlank (u ++ v) = (allBlank u && allBlank v) :=
  List.all_append

theorem allBlank_trimStart (t : Text) : allBlank (trimStart t) = allBlank t := by
  obtain ⟨w, hw, ht⟩ := exists_eq_append_trimStart t
  conv_rhs => rw [ht, allBlank_append, hw, Bool.true_and]

theorem allBlank_trimEnd (t : Text) : allBlank (trimEnd t) = allBlank t := by
  obtain ⟨w, hw, ht⟩ := exists_eq_trimEnd_append t
  conv_rhs => rw [ht, allBlank_append, hw, Bool.and_true]

theorem trimStart_append (ht : allBlank t = false) (rest : Text) :
    trimStart (t ++ rest) = trimStart t ++ rest := by
  have hstop : t.dropWhile isBlank ≠ [] := by
    rw [Ne, List.dropWhile_eq_nil_iff]
    simpa [allBlank] using ht
  rw [trimStart, trimStart, List.dropWhile_append]
  simp [hstop]

/-- A text of rows begins with its first row. -/
theorem unrows_cons_eq (row : Text) (rest : List Text) :
    unrows (row :: rest) = row ++ unrows ([] :: rest) := by
  have h := unrows_append_cons [] row [] rest
  rwa [List.append_nil] at h

/-- A text of rows ends with its last row. -/
theorem unrows_concat_eq (front : List Text) (row : Text) :
    unrows (front ++ [row]) = unrows (front ++ [[]]) ++ row :=
  unrows_append_cons front [] row []

theorem trimStart_unrows (h : ∀ row ∈ rs, allBlank row = false) :
    trimStart (unrows rs) = unrows (rs.modifyHead trimStart) := by
  cases rs with
  | nil => rfl
  | cons first rest =>
    have hfirst := h first List.mem_cons_self
    rw [unrows_cons_eq, trimStart_append hfirst, ← unrows_cons_eq, List.modifyHead_cons]

theorem trimEnd_unrows (h : ∀ row ∈ rs, allBlank row = false) :
    trimEnd (unrows rs) = unrows (rs.modifyLast trimEnd) := by
  cases rs using List.reverseRecOn with
  | nil => rfl
  | append_singleton front last =>
    have hlast := h last (List.mem_append_right front List.mem_cons_self)
    rw [unrows_concat_eq, trimEnd_append hlast, ← unrows_concat_eq, List.modifyLast_concat]

section Kept

variable {P : Text → Prop}

theorem forall_modifyHead (hstart : ∀ row, P row → P (trimStart row)) (h : ∀ row ∈ rs, P row) :
    ∀ row ∈ rs.modifyHead trimStart, P row := by
  cases rs with
  | nil => exact h
  | cons first rest =>
    obtain ⟨hfirst, hrest⟩ := List.forall_mem_cons.mp h
    exact List.forall_mem_cons.mpr ⟨hstart first hfirst, hrest⟩

theorem forall_modifyLast (hend : ∀ row, P row → P (trimEnd row)) (h : ∀ row ∈ rs, P row) :
    ∀ row ∈ rs.modifyLast trimEnd, P row := by
  cases rs using List.reverseRecOn with
  | nil => exact h
  | append_singleton front last =>
    obtain ⟨hfront, hlast⟩ := List.forall_mem_append.mp h
    rw [List.modifyLast_concat]
    refine List.forall_mem_append.mpr ⟨hfront, fun row hrow => ?_⟩
    rw [List.mem_singleton.mp hrow]
    exact hend last (hlast last List.mem_cons_self)

theorem forall_trimOuter (hstart : ∀ row, P row → P (trimStart row))
    (hend : ∀ row, P row → P (trimEnd row)) (h : ∀ row ∈ rs, P row) : ∀ row ∈ trimOuter rs, P row :=
  forall_modifyLast hend (forall_modifyHead hstart h)

end Kept

/-- Trimming a text without blank rows trims its first row at the start and its last one at the
end. -/
theorem trim_unrows (h : ∀ row ∈ rs, allBlank row = false) :
    trim (unrows rs) = unrows (trimOuter rs) := by
  have hhead : ∀ row ∈ rs.modifyHead trimStart, allBlank row = false :=
    forall_modifyHead (fun row hrow => (allBlank_trimStart row).trans hrow) h
  rw [trim, trimStart_unrows h, trimEnd_unrows hhead, trimOuter]

theorem trim_dropBlankLines (t : Text) : trim (dropBlankLines t) = unrows (trimOuter (solidRows t)) := by
  rw [dropBlankLines_eq, trim_unrows fun row => allBlank_of_mem_solidRows]

theorem trimOuter_ne_nil (h : rs ≠ []) : trimOuter rs ≠ [] := by
  have hhead : rs.modifyHead trimStart ≠ [] := by simpa using h
  rw [trimOuter, ← List.dropLast_append_getLast hhead, List.modifyLast_concat]
  exact List.append_ne_nil_of_right_ne_nil _ (List.cons_ne_nil _ _)

/-- Without its blank lines and trimmed, a text has its solid rows, the outer two of them trimmed. -/
theorem rows_trim_dropBlankLines (h : solidRows t ≠ []) :
    rows (trim (dropBlankLines t)) = trimOuter (solidRows t) := by
  rw [trim_dropBlankLines]
  refine rows_unrows (trimOuter_ne_nil h) (forall_trimOuter ?_ ?_ ?_)
  · exact fun row hrow hmem => hrow ((List.dropWhile_sublist isBlank).subset hmem)
  · exact fun row hrow hmem => hrow ((trimEnd_sublist row).subset hmem)
  · exact fun row => newline_not_mem_of_mem_solidRows

/-- The text has a solid character on each of its rows, and no white space at its ends. -/
structure IsCompact (t : Text) : Prop where
  rows_solid : ∀ row ∈ rows t, ∃ c ∈ row, isBlank c = false
  starts_solid : ∀ c, t.head? = some c → isBlank c = false
  ends_solid : ∀ c, t.getLast? = some c → isBlank c = false

theorem starts_solid_trim (t : Text) : ∀ c, (trim t).head? = some c → isBlank c = false := by
  intro c hc
  rw [trim] at hc
  obtain ⟨rest, hrest⟩ := trimEnd_isPrefix (trimStart t)
  have hhead : (trimStart t).head? = some c := by
    rw [← hrest, List.head?_append_of_ne_nil _ (List.ne_nil_of_mem (List.mem_of_head? hc))]
    exact hc
  have hstop := List.head?_dropWhile_not isBlank t
  rw [← trimStart, hhead] at hstop
  simpa using hstop

theorem isCompact_trim_dropBlankLines (h : solidRows t ≠ []) :
    IsCompact (trim (dropBlankLines t)) where
  rows_solid := by
    have hsolid : ∀ row ∈ trimOuter (solidRows t), allBlank row = false :=
      forall_trimOuter (fun row hrow => (allBlank_trimStart row).trans hrow)
        (fun row hrow => (allBlank_trimEnd row).trans hrow) fun row => allBlank_of_mem_solidRows
    intro row hrow
    rw [rows_trim_dropBlankLines h] at hrow
    simpa [allBlank] using hsolid row hrow
  starts_solid := starts_solid_trim _
  ends_solid := endsSolid_trimEnd _

end SourceBundle.Text
