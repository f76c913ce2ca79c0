import SourceBundle.Bundle.Processing
import SourceBundle.Proofs.Text.SolidRows

/-!
# Files without blank lines

Where blank lines are removed, and the file is neither outlined nor numbered, what a document shows of
it is a trimmed text without blank lines.  So whatever removing comments has left of the file, the
result is empty or compact.

Where no comments are removed, nothing but blank lines, line ends and outer white space is lost: the
rows of the result are the solid rows of the file (`rows_content`).
-/

namespace SourceBundle.Processing

open Text

variable {captures : Text → List Outline.Capture} {s : OutputSettings} {path : Text}

/-- What is shown is a text without blank lines and outer white space; it is the text of the file if
no comments are removed. -/
theorem exists_content_eq (hempty : s.removeEmptyLines = true) (hcompress : s.compress = false)
    (hnumbers : s.showLineNumbers = false) (path t : Text) :
    ∃ u, content captures s path t = trim (dropBlankLines u) ∧
      (s.removeComments = false ∨ Comments.removerOfPath? path = none → u = t) := by
  have hcontent : content captures s path t = cleaned s path t := by
    simp only [content, hcompress, hnumbers, Bool.false_eq_true, if_false]
  rw [hcontent, cleaned, hempty]
  refine ⟨_, rfl, ?_⟩
  rintro (hkept | hnone)
  · cases Comments.removerOfPath? path with
    | none => rfl
    | some remover => simp only [hkept, Bool.false_eq_true, if_false]
  · rw [hnone]

/-- **Blank lines are removed, and only they.**  The result is empty or has no blank row and no white
space at its ends.  If no comments are removed, its rows are the rows of the file that are not blank,
without the carriage returns at line ends; the first is trimmed at its start and the last at its
end. -/
theorem rows_content (hempty : s.removeEmptyLines = true) (hcompress : s.compress = false)
    (hnumbers : s.showLineNumbers = false) (path t : Text) :
    (content captures s path t = [] ∨ IsCompact (content captures s path t)) ∧
      (s.removeComments = false ∨ Comments.removerOfPath? path = none →
        content captures s path t = unrows (trimOuter (solidRows t)) ∧
          (solidRows t ≠ [] → rows (content captures s path t) = trimOuter (solidRows t))) := by
  obtain ⟨u, hu, hsame⟩ := exists_content_eq hempty hcompress hnumbers path t
  rw [hu]
  constructor
  · by_cases hsolid : solidRows u = []
    · left
      rw [trim_dropBlankLines, hsolid]
      rfl
    · exact .inr (isCompact_trim_dropBlankLines hsolid)
  · intro hkept
    rw [hsame hkept]
    exact ⟨trim_dropBlankLines t, rows_trim_dropBlankLines⟩

/-- Of the two carriage returns behind `b` one belongs to the end of the line.  Comments of an unknown
kind stay, though comments are to be removed. -/
theorem rows_content_mixedLineEnds :
    Comments.removerOfPath? "notes.txt".toList = none ∧
      IsCompact (content (fun _ => []) { removeComments := true, removeEmptyLines := true }
        "notes.txt".toList "\r\n\t// keep\r\n \r\n b\r\r\nc \r".toList) ∧
      rows (content (fun _ => []) { removeComments := true, removeEmptyLines := true }
        "notes.txt".toList "\r\n\t// keep\r\n \r\n b\r\r\nc \r".toList) =
          ["// keep".toList, " b\r".toList, "c".toList] := by
  have hnone : Comments.removerOfPath? "notes.txt".toList = none := rfl
  have hsolid : solidRows "\r\n\t// keep\r\n \r\n b\r\r\nc \r".toList =
      ["\t// keep".toList, " b\r".toList, "c \r".toList] := by decide
  have htrimmed : trimOuter ["\t// keep".toList, " b\r".toList, "c \r".toList] =
      ["// keep".toList, " b\r".toList, "c".toList] := by decide
  obtain ⟨hcompact, hkept⟩ := @rows_content (fun _ => [])
    { removeComments := true, removeEmptyLines := true } rfl rfl rfl "notes.txt".toList
    "\r\n\t// keep\r\n \r\n b\r\r\nc \r".toList
  obtain ⟨hcontent, hrows⟩ := hkept (.inr hnone)
  rw [hsolid, htrimmed] at hcontent hrows
  refine ⟨hnone, hcompact.resolve_left ?_, hrows (List.cons_ne_nil _ _)⟩
  rw [hcontent]
  decide

end SourceBundle.Processing
