import SourceBundle.Text.Blank

/-!
# Lines

Two ways to cut a text into lines are in use.  `rows` cuts at every line feed and keeps all
there is, also an empty last row.  `lines` is what a reader of the text sees: a carriage return
in front of a line feed belongs to the line's end, and a line feed at the very end of the text
opens no further line.

On them rest the three line-wise rules of the library: dropping blank lines, trimming line ends
and numbering.
-/

namespace SourceBundle.Text

/-- The rows of a text: its pieces between line feeds. -/
def rows (t : Text) : List Text := pieces '\n' t

/-- Rows put together again. -/
def unrows (rs : List Text) : Text := join ['\n'] rs

/-- A line without the one carriage return that may stand at its end. -/
def dropReturn (line : Text) : Text := (before? ['\r'] line).getD line

/-- Rows read as lines: each but the last loses the carriage return at its end, and an empty last
row is no line. -/
def readLines : List Text → List Text
  | [] => []
  | [last] => if last.isEmpty then [] else [last]
  | row :: rest => dropReturn row :: readLines rest

/-- The lines of a text, without their ends. -/
def lines (t : Text) : List Text := readLines (rows t)

/-- The text without its blank lines. -/
def dropBlankLines (t : Text) : Text := unrows ((lines t).filter fun line => !allBlank line)

/-- The text with no white space at the end of any line. -/
def trimLineEnds (t : Text) : Text := unrows ((lines t).map trimEnd)

/-- The number of rows of a text. -/
def rowCount (t : Text) : Nat := t.count '\n' + 1

/-- Rows with their numbers, counted from `first`, in a column of `width` characters. -/
def numberRows (width first : Nat) : List Text → List Text
  | [] => []
  | row :: rest =>
    (padLeft width (numeral first) ++ [':', ' '] ++ row) :: numberRows width (first + 1) rest

/-- The text with every row behind its number; the numbers are flush right. -/
def numberLines (t : Text) : Text :=
  let rs := rows t
  unrows (numberRows (numeral rs.length).length 1 rs)

theorem unrows_rows (t : Text) : unrows (rows t) = t := join_pieces '\n' t

/-- The number of rows counted by line feeds is the number of rows the text is cut into. -/
theorem length_rows (t : Text) : (rows t).length = rowCount t := by
  unfold rows rowCount
  induction t with
  | nil => rfl
  | cons c t ih =>
    by_cases h : c = '\n'
    · simp [pieces, h, ih]
    · have hp := pieces_ne_nil '\n' t
      simp only [pieces, h, if_false]
      cases hq : pieces '\n' t with
      | nil => exact absurd hq hp
      | cons piece rest =>
        rw [hq] at ih
        have h' : (c == '\n') = false := by simpa using h
        simpa [List.count_cons, h'] using ih

end SourceBundle.Text
