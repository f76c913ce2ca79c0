import Mathlib.Data.List.Forall2
import SourceBundle.Proofs.Text.Leads
import SourceBundle.Proofs.Text.Pieces

/-!
# Rows and lines

The lines of a text are its rows, each without a carriage return at its end, but for an empty last
row, which is no line (`forall₂_readLines`).  Trimming the ends of lines therefore goes row by row:
every row of the result comes from the row of the text with the same number, and no row is lost but
an empty last one (`forall₂_rows_trimLineEnds`).
-/

namespace SourceBundle.Text

/-- The text has no white space at its end. -/
def EndsSolid (t : Text) : Prop := ∀ c, t.getLast? = some c → isBlank c = false

theorem endsSolid_nil : EndsSolid [] := by
  intro c h
  cases h

theorem endsSolid_trimEnd (t : Text) : EndsSolid (trimEnd t) := by
  intro c h
  rw [trimEnd, List.getLast?_reverse] at h
  have hstop := List.head?_dropWhile_not isBlank t.reverse
  rw [h] at hstop
  simpa using hstop

theorem trimEnd_sublist (t : Text) : (trimEnd t).Sublist t := by
  have h : (t.reverse.dropWhile isBlank).Sublist t.reverse := List.dropWhile_sublist isBlank
  have hreverse := h.reverse
  rwa [List.reverse_reverse] at hreverse

theorem dropReturn_sublist (row : Text) : (dropReturn row).Sublist row := by
  unfold dropReturn
  cases h : before? ['\r'] row with
  | none => exact .refl row
  | some line =>
    rw [before?_eq_some_iff.1 h]
    exact List.sublist_append_left line ['\r']

/-! ## Lines -/

/-- Every row gives a line, but for an empty last row. -/
theorem forall₂_readLines (rs : List Text) :
    List.Forall₂ List.Sublist (readLines rs) rs ∨
      ∃ front, rs = front ++ [[]] ∧ List.Forall₂ List.Sublist (readLines rs) front := by
  induction rs with
  | nil => exact .inl .nil
  | cons row rest ih =>
    cases rest with
    | nil =>
      cases row with
      | nil => exact .inr ⟨[], rfl, .nil⟩
      | cons c row => exact .inl (.cons (.refl _) .nil)
    | cons next rest =>
      have hrow := dropReturn_sublist row
      rcases ih with h | ⟨front, hfront, h⟩
      · exact .inl (.cons hrow h)
      · refine .inr ⟨row :: front, ?_, .cons hrow h⟩
        rw [hfront, List.cons_append]

/-- Texts that are part of rows hold no line feed either. -/
theorem newline_not_mem_of_forall₂ {ls rs : List Text} (h : List.Forall₂ List.Sublist ls rs)
    (hrs : ∀ row ∈ rs, '\n' ∉ row) : ∀ line ∈ ls, '\n' ∉ line := by
  induction h with
  | nil => exact fun line hline => absurd hline List.not_mem_nil
  | @cons line row ls rs hsub _ ih =>
    intro other hother
    rcases List.mem_cons.mp hother with rfl | hother
    · exact fun hmem => hrs row List.mem_cons_self (hsub.subset hmem)
    · exact ih (fun r hr => hrs r (List.mem_cons_of_mem row hr)) other hother

theorem newline_not_mem_of_mem_rows {t row : Text} (h : row ∈ rows t) : '\n' ∉ row :=
  not_mem_of_mem_pieces h

theorem newline_not_mem_of_mem_lines {t line : Text} (h : line ∈ lines t) : '\n' ∉ line := by
  rcases forall₂_readLines (rows t) with hrows | ⟨front, hfront, hrows⟩
  · exact newline_not_mem_of_forall₂ hrows (fun row => newline_not_mem_of_mem_rows) line h
  · refine newline_not_mem_of_forall₂ hrows (fun row hrow => ?_) line h
    have hmem : row ∈ rows t := by
      rw [hfront]
      exact List.mem_append_left _ hrow
    exact newline_not_mem_of_mem_rows hmem

/-- Rows without line feeds are found again in the text that they make. -/
theorem rows_unrows {rs : List Text} (hne : rs ≠ []) (h : ∀ row ∈ rs, '\n' ∉ row) :
    rows (unrows rs) = rs :=
  pieces_join hne h

/-! ## Trimming the ends of lines -/

/-- A text without any line has one row, which is empty. -/
theorem rows_of_lines_eq_nil {t : Text} (h : lines t = []) : rows t = [[]] := by
  rcases forall₂_readLines (rows t) with hrows | ⟨front, hfront, hrows⟩
  · rw [show readLines (rows t) = [] from h, List.forall₂_nil_left_iff] at hrows
    exact absurd hrows (pieces_ne_nil '\n' t)
  · rw [show readLines (rows t) = [] from h, List.forall₂_nil_left_iff] at hrows
    rw [hfront, hrows, List.nil_append]

theorem rows_trimLineEnds {t : Text} (h : lines t ≠ []) :
    rows (trimLineEnds t) = (lines t).map trimEnd := by
  refine rows_unrows (by simpa using h) fun line hline => ?_
  obtain ⟨original, horiginal, rfl⟩ := List.mem_map.1 hline
  exact fun hmem => newline_not_mem_of_mem_lines horiginal ((trimEnd_sublist original).subset hmem)

theorem forall₂_map_trimEnd {ls rs : List Text} (h : List.Forall₂ List.Sublist ls rs) :
    List.Forall₂ (fun line row => EndsSolid line ∧ line.Sublist row) (ls.map trimEnd) rs := by
  induction h with
  | nil => exact .nil
  | cons h _ ih => exact .cons ⟨endsSolid_trimEnd _, (trimEnd_sublist _).trans h⟩ ih

/-- Trimming the ends of lines goes row by row, and only an empty last row may be lost. -/
theorem forall₂_rows_trimLineEnds (t : Text) :
    List.Forall₂ (fun line row => EndsSolid line ∧ line.Sublist row)
        (rows (trimLineEnds t)) (rows t) ∨
      ∃ front, rows t = front ++ [[]] ∧
        List.Forall₂ (fun line row => EndsSolid line ∧ line.Sublist row)
          (rows (trimLineEnds t)) front := by
  by_cases hlines : lines t = []
  · have hresult : rows (trimLineEnds t) = [[]] := by
      rw [trimLineEnds, hlines]
      rfl
    rw [hresult, rows_of_lines_eq_nil hlines]
    exact .inl (.cons ⟨endsSolid_nil, .refl []⟩ .nil)
  · rw [rows_trimLineEnds hlines]
    rcases forall₂_readLines (rows t) with h | ⟨front, hfront, h⟩
    · exact .inl (forall₂_map_trimEnd h)
    · exact .inr ⟨front, hfront, forall₂_map_trimEnd h⟩

end SourceBundle.Text
