import SourceBundle.Proofs.Text.Lines

/-!
# Numbered rows

Numbering puts a lead in front of every row: the number of the row, flush right in a column, and a
colon with a blank.  The column is as wide as the number of the last row.  No smaller number has more
digits (`length_numeral_le`), so no number sticks out of the column, and the leads of all rows have
one width (`IsNumberLead.length_eq`).

A lead holds no line feed, so the numbered text has the rows of the text, each behind its lead
(`rows_numberLines`).  It has as many rows as the text, and with them it tells how wide its leads are:
what is behind the leads is the text again (`withoutNumbers_numberLines`).
-/

namespace SourceBundle.Text

variable {i last : Nat} {lead t u : Text}

/-! ## Leads -/

/-- The lead of row `i` where the last row is `last`: the numeral of `i` behind as many blanks as
give both together the width of the numeral of `last`, and a colon with a blank. -/
def IsNumberLead (last i : Nat) (lead : Text) : Prop :=
  ∃ blanks, blanks + (numeral i).length = (numeral last).length ∧
    lead = List.replicate blanks ' ' ++ numeral i ++ [':', ' ']

/-- The lead that numbering puts in front of row `i`. -/
def numberLead (last i : Nat) : Text := padLeft (numeral last).length (numeral i) ++ [':', ' ']

/-- A smaller number does not have more digits. -/
theorem length_numeral_le (h : i ≤ last) : (numeral i).length ≤ (numeral last).length := by
  have hfits : ∀ n, n < 10 ^ (numeral last).length ↔ (numeral n).length ≤ (numeral last).length :=
    fun n => (Nat.length_toDigits_le_iff (by decide) Nat.length_toDigits_pos).symm
  have hlast : last < 10 ^ (numeral last).length := (hfits last).mpr (Nat.le_refl _)
  exact (hfits i).mp (Nat.lt_of_le_of_lt h hlast)

theorem isNumberLead_numberLead (h : i ≤ last) : IsNumberLead last i (numberLead last i) :=
  ⟨(numeral last).length - (numeral i).length, Nat.sub_add_cancel (length_numeral_le h), rfl⟩

/-- All leads have one width. -/
theorem IsNumberLead.length_eq (h : IsNumberLead last i lead) :
    lead.length = (numeral last).length + 2 := by
  obtain ⟨blanks, hwidth, rfl⟩ := h
  rw [List.length_append, List.length_append, List.length_replicate, hwidth]
  rfl

theorem newline_not_mem_numberLead (last i : Nat) : '\n' ∉ numberLead last i := by
  have hblank : '\n' ∉ List.replicate ((numeral last).length - (numeral i).length) ' ' :=
    fun hmem => absurd (List.eq_of_mem_replicate hmem) (by decide)
  exact List.not_mem_append (List.not_mem_append hblank (not_mem_numeral rfl i)) (by decide)

/-! ## Rows behind their leads -/

theorem numberRows_eq_mapIdx (width first : Nat) (rs : List Text) :
    numberRows width first rs = rs.mapIdx fun i row =>
      padLeft width (numeral (first + i)) ++ [':', ' '] ++ row := by
  induction rs generalizing first with
  | nil => rfl
  | cons row rest ih =>
    have hnext : ∀ i, first + 1 + i = first + (i + 1) := by omega
    rw [numberRows, ih, List.mapIdx_cons]
    simp only [hnext, Nat.add_zero]

theorem numberLines_eq (t : Text) :
    numberLines t = unrows ((rows t).mapIdx fun i row => numberLead (rowCount t) (i + 1) ++ row) := by
  have hrows := numberRows_eq_mapIdx (numeral (rows t).length).length 1 (rows t)
  simp only [Nat.add_comm 1] at hrows
  rw [numberLines, hrows, length_rows]
  rfl

/-- The numbered text has the rows of the text, each behind its lead. -/
theorem rows_numberLines (t : Text) :
    rows (numberLines t) =
      (rows t).mapIdx fun i row => numberLead (rowCount t) (i + 1) ++ row := by
  rw [numberLines_eq]
  have hne : rows t ≠ [] := pieces_ne_nil '\n' t
  refine rows_unrows (by simpa using hne) fun numbered hnumbered => ?_
  obtain ⟨i, hi, rfl⟩ := List.mem_mapIdx.mp hnumbered
  have hrow : '\n' ∉ (rows t)[i] := newline_not_mem_of_mem_rows (List.getElem_mem hi)
  exact List.not_mem_append (newline_not_mem_numberLead _ _) hrow

theorem rowCount_numberLines (t : Text) : rowCount (numberLines t) = rowCount t := by
  rw [← length_rows, rows_numberLines, List.length_mapIdx, length_rows]

/-! ## Numbers taken off -/

/-- The text without the leads of its rows. -/
def withoutNumbers (t : Text) : Text :=
  unrows ((rows t).map fun row => row.drop ((numeral (rowCount t)).length + 2))

/-- What is behind the leads is the text again. -/
theorem withoutNumbers_numberLines (t : Text) : withoutNumbers (numberLines t) = t := by
  have hback : (rows (numberLines t)).map (fun row =>
      row.drop ((numeral (rowCount t)).length + 2)) = rows t := by
    refine List.ext_getElem? fun i => ?_
    rw [List.getElem?_map, rows_numberLines, List.getElem?_mapIdx]
    cases hi : (rows t)[i]? with
    | none => rfl
    | some row =>
      have hlast : i + 1 ≤ rowCount t := by
        rw [← length_rows]
        exact (List.getElem?_eq_some_iff.mp hi).1
      have hwidth := (isNumberLead_numberLead hlast).length_eq
      rw [Option.map_some, Option.map_some, List.drop_left' hwidth]
  rw [withoutNumbers, rowCount_numberLines, hback, unrows_rows]

/-- `u` is the text `t` with its rows numbered. -/
structure IsNumberingOf (u t : Text) : Prop where
  /-- No row is added or lost. -/
  length_rows_eq : (rows u).length = (rows t).length
  rowCount_eq : rowCount u = rowCount t
  /-- Every row is there as it was, behind its number. -/
  rowwise : ∀ i row, (rows t)[i]? = some row →
    ∃ lead, IsNumberLead (rows t).length (i + 1) lead ∧ (rows u)[i]? = some (lead ++ row)
  /-- All leads have one width. -/
  uniform : ∀ i lead, IsNumberLead (rows t).length i lead →
    lead.length = (numeral (rows t).length).length + 2
  /-- With the leads taken off its rows, the text is the one that was numbered. -/
  restored : withoutNumbers u = t

/-- **Numbering can be undone.**  It puts every row behind its number, in leads of one width that can
be taken off again. -/
theorem isNumberingOf_numberLines (t : Text) : IsNumberingOf (numberLines t) t where
  length_rows_eq := by rw [length_rows, length_rows, rowCount_numberLines]
  rowCount_eq := rowCount_numberLines t
  rowwise := by
    intro i row hrow
    have hlast : i + 1 ≤ (rows t).length := (List.getElem?_eq_some_iff.mp hrow).1
    refine ⟨numberLead (rows t).length (i + 1), isNumberLead_numberLead hlast, ?_⟩
    rw [rows_numberLines, List.getElem?_mapIdx, hrow, length_rows]
    rfl
  uniform := fun _ _ hlead => hlead.length_eq
  restored := withoutNumbers_numberLines t

/-- Of ten rows the ninth has a blank in front of its number. -/
example : (rows (numberLines (List.replicate 9 '\n')))[8]? = some [' ', '9', ':', ' '] := by decide

end SourceBundle.Text
