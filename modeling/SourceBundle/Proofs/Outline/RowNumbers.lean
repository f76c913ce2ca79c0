import SourceBundle.Outline.Strategy
import SourceBundle.Proofs.Results

/-!
# Rows by their numbers

Rules can be carried out on the numbers of rows.  The last row of a range is clamped to the file, the
row with the brace of a header is searched for downwards and the first decorator of a function
upwards, and every row is fetched by its number.  Here a fetch of a row that the file does not have
is an error with the number of that row.

No rule makes such a fetch, wherever a capture starts and ends, and each keeps what it keeps of the
capture otherwise (`keptTextAt_eq`).
-/

namespace SourceBundle.Outline

/-! ## Texts of rows -/

/-- The text of rows, unless there are none. -/
def unrows? (selected : List Text) : Option Text :=
  if selected.isEmpty then none else some (Text.unrows selected)

theorem unrows?_eq_some {selected : List Text} {x : Text} :
    unrows? selected = some x ↔ selected ≠ [] ∧ Text.unrows selected = x := by
  cases selected <;> simp [unrows?]

theorem selectRows?_eq_unrows? (rows : List Text) (first last : Nat) :
    selectRows? rows first last =
      unrows? ((rows.drop first).take (max last first + 1 - first)) := by
  rw [selectRows?, unrows?]
  cases (rows.drop first).take (max last first + 1 - first) <;> rfl

theorem signature?_eq_unrows? (rows : List Text) (first last : Nat) :
    signature? rows first last =
      unrows? (headerRows ((rows.drop first).take (max last first + 1 - first))) := by
  rw [signature?, unrows?]
  cases headerRows ((rows.drop first).take (max last first + 1 - first)) <;> rfl

/-! ## Fetching rows -/

/-- A row of the file. -/
def rowAt (rows : List Text) (number : Nat) : Except Nat Text :=
  match rows[number]? with
  | some row => .ok row
  | none => .error number

/-- The rows of the file from `first` to before `stop`. -/
def rowsAt (rows : List Text) (first stop : Nat) : Except Nat (List Text) :=
  if first ≤ stop ∧ stop ≤ rows.length then .ok ((rows.drop first).take (stop - first))
  else .error stop

/-- The last row of a range, as far as the file has it. -/
def clampedRow (rows : List Text) (first last : Nat) : Nat := max (min last (rows.length - 1)) first

/-- The rows from `first` to `last`, by their numbers. -/
def selectRowsAt (rows : List Text) (first last : Nat) : Except Nat (Option Text) :=
  if rows.length ≤ first then .ok none
  else
    (rowsAt rows first (clampedRow rows first last + 1)).map fun selected =>
      some (Text.unrows selected)

/-- The header that begins on the row `first`, whose brace is searched for on `count` rows from `row`
on. -/
def signatureFrom (rows : List Text) (first last : Nat) : (row count : Nat) →
    Except Nat (Option Text)
  | _, 0 => selectRowsAt rows first last
  | row, count + 1 => do
    let braced ← rowAt rows row
    match Text.beforeLast? '\x7b' braced with
    | none => signatureFrom rows first last (row + 1) count
    | some head =>
      let above ← rowsAt rows first row
      return unrows? (if Text.allBlank head then above else above ++ [Text.trimEnd head])

/-- The header that begins on the row `first`, by the numbers of its rows. -/
def signatureAt (rows : List Text) (first last : Nat) : Except Nat (Option Text) :=
  if rows.length ≤ first then .ok none
  else signatureFrom rows first last first (clampedRow rows first last + 1 - first)

/-- The first row of the decorators right above a row, each fetched by its number. -/
def decoratorStartAt (rows : List Text) : Nat → Except Nat Nat
  | 0 => .ok 0
  | row + 1 => do
    let above ← rowAt rows row
    if (Text.trimStart above).head? = some '@' then decoratorStartAt rows row else return row + 1

/-- What a rule keeps of a capture on a row that is not empty, by the numbers of the rows. -/
def Strategy.textAt (strategy : Strategy) (rows : List Text) (c : Capture) :
    Except Nat (Option Text) :=
  match strategy with
  | .general =>
    if c.isOneOf ["name", "comment", "import", "require"] then
      selectRowsAt rows c.startRow c.endRow
    else .ok none
  | .python =>
    if c.isA "definition.class" then selectRowsAt rows c.startRow c.headerRow
    else if c.isA "definition.function" then do
      let first ← decoratorStartAt rows c.startRow
      selectRowsAt rows first c.headerRow
    else if c.isOneOf ["docstring", "comment", "definition.import"] then
      selectRowsAt rows c.startRow c.endRow
    else .ok none
  | .typeScript =>
    if c.isOneOf ["comment", "definition.import", "definition.interface", "definition.type",
        "definition.enum"] then
      selectRowsAt rows c.startRow c.endRow
    else if c.isOneOf ["definition.function", "definition.method", "definition.class"] then
      signatureAt rows c.startRow c.endRow
    else .ok none
  | .go =>
    if c.isOneOf ["definition.function", "definition.method"] then
      signatureAt rows c.startRow c.endRow
    else if c.isOneOf ["comment", "definition.package", "definition.import", "definition.type",
        "definition.constant", "definition.variable"] then
      selectRowsAt rows c.startRow c.endRow
    else .ok none
  | .css =>
    Except.map (Option.filter fun t => !Text.allBlank t) <|
      if c.isOneOf ["comment", "definition.import"] then selectRowsAt rows c.startRow c.endRow
      else if c.isA "definition.selector" then
        (selectRowsAt rows c.startRow c.endRow).map (Option.map prelude)
      else if c.isA "definition.at_rule" then
        (rowAt rows c.startRow).map fun row => some (prelude row)
      else .ok none
  | .vue =>
    if c.isOneOf ["comment", "definition.script", "definition.template", "definition.style"] then
      selectRowsAt rows c.startRow c.endRow
    else .ok none

/-- What an outline keeps of a capture, by the numbers of the rows. -/
def keptTextAt (strategy : Strategy) (rows : List Text) (c : Capture) : Except Nat (Option Text) :=
  match rows[c.startRow]? with
  | none => .ok none
  | some [] => .ok none
  | some (_ :: _) => strategy.textAt rows c

/-! ## Numbers of rows of the file -/

section

variable {rows : List Text} {first last row : Nat}

theorem rowAt_eq (h : row < rows.length) : rowAt rows row = .ok rows[row] := by
  rw [rowAt, List.getElem?_eq_getElem h]

theorem rowsAt_eq {stop : Nat} (hfirst : first ≤ stop) (hstop : stop ≤ rows.length) :
    rowsAt rows first stop = .ok ((rows.drop first).take (stop - first)) :=
  if_pos ⟨hfirst, hstop⟩

theorem clampedRow_lt (h : first < rows.length) (last : Nat) :
    clampedRow rows first last < rows.length := by
  unfold clampedRow
  omega

theorem le_clampedRow (rows : List Text) (first last : Nat) : first ≤ clampedRow rows first last :=
  Nat.le_max_right _ first

/-- The rows up to the clamped end of a range are all that the file has of the range. -/
theorem take_clampedRow (h : first < rows.length) (last : Nat) :
    (rows.drop first).take (clampedRow rows first last + 1 - first) =
      (rows.drop first).take (max last first + 1 - first) := by
  rw [List.take_eq_take_iff, List.length_drop]
  unfold clampedRow
  omega

theorem selectRowsAt_eq (rows : List Text) (first last : Nat) :
    selectRowsAt rows first last = .ok (selectRows? rows first last) := by
  rw [selectRowsAt, selectRows?_eq_unrows?]
  split
  · rename_i behind
    rw [List.drop_eq_nil_of_le behind, List.take_nil]
    rfl
  · rename_i inside
    have hfirst : first < rows.length := Nat.not_le.mp inside
    have hle := le_clampedRow rows first last
    have hsome : (rows.drop first).take (max last first + 1 - first) ≠ [] := by
      rw [ne_eq, List.take_eq_nil_iff, List.drop_eq_nil_iff]
      omega
    rw [rowsAt_eq (Nat.le_succ_of_le hle) (clampedRow_lt hfirst last), take_clampedRow hfirst,
      unrows?_eq_some.mpr ⟨hsome, rfl⟩]
    rfl

/-- Rows without a brace all belong to the header, and so does what follows them. -/
theorem headerRows_append {front : List Text}
    (h : ∀ row ∈ front, Text.beforeLast? '\x7b' row = none) (rest : List Text) :
    headerRows (front ++ rest) = front ++ headerRows rest := by
  induction front with
  | nil => rfl
  | cons row front ih =>
    obtain ⟨hrow, hfront⟩ := List.forall_mem_cons.mp h
    rw [List.cons_append, headerRows, hrow]
    exact congrArg (row :: ·) (ih hfront)

/-- While no row from `first` to before `row` has a brace, the search goes on inside the file. -/
theorem signatureFrom_eq (hinside : first < rows.length) {count : Nat} (hfirst : first ≤ row)
    (hcount : row + count = clampedRow rows first last + 1)
    (hnone : ∀ above ∈ (rows.drop first).take (row - first), Text.beforeLast? '\x7b' above = none) :
    signatureFrom rows first last row count = .ok (signature? rows first last) := by
  induction count generalizing row with
  | zero =>
    have hall : headerRows ((rows.drop first).take (max last first + 1 - first)) =
        (rows.drop first).take (max last first + 1 - first) := by
      obtain rfl : row = clampedRow rows first last + 1 := hcount
      rw [take_clampedRow hinside] at hnone
      simpa [headerRows] using headerRows_append hnone []
    rw [signatureFrom, selectRowsAt_eq, selectRows?_eq_unrows?, signature?_eq_unrows?, hall]
  | succ count ih =>
    have hrow : row < rows.length := by
      have := clampedRow_lt hinside last
      omega
    have hdrop : (rows.drop first).drop (row - first) = rows[row] :: rows.drop (row + 1) := by
      rw [List.drop_drop, Nat.add_sub_cancel' hfirst, List.drop_eq_getElem_cons hrow]
    have hselected : (rows.drop first).take (max last first + 1 - first) =
        (rows.drop first).take (row - first) ++ rows[row] :: (rows.drop (row + 1)).take count := by
      have hsplit : clampedRow rows first last + 1 - first = row - first + (count + 1) := by omega
      rw [← take_clampedRow hinside, hsplit, List.take_add, hdrop, List.take_succ_cons]
    rw [signatureFrom, rowAt_eq hrow, ok_bind]
    cases hbrace : Text.beforeLast? '\x7b' rows[row] with
    | none =>
      refine ih (Nat.le_succ_of_le hfirst) (by omega) fun above habove => ?_
      rw [Nat.sub_add_comm hfirst, List.take_add, hdrop, List.mem_append] at habove
      rcases habove with habove | habove
      · exact hnone above habove
      · rw [List.mem_singleton.mp habove]
        exact hbrace
    | some head =>
      rw [signature?_eq_unrows?, hselected, headerRows_append hnone, headerRows, hbrace]
      simp only [rowsAt_eq hfirst (Nat.le_of_lt hrow), ok_bind]
      split
      · rw [List.append_nil]
        rfl
      · rfl

theorem signatureAt_eq (rows : List Text) (first last : Nat) :
    signatureAt rows first last = .ok (signature? rows first last) := by
  unfold signatureAt
  split
  · rename_i behind
    rw [signature?_eq_unrows?, List.drop_eq_nil_of_le behind, List.take_nil]
    rfl
  · rename_i inside
    have hle := le_clampedRow rows first last
    exact signatureFrom_eq (Nat.not_le.mp inside) (Nat.le_refl first) (by omega) (by simp)

/-- Above a row of the file all rows are rows of the file. -/
theorem decoratorStartAt_eq (h : row ≤ rows.length) :
    decoratorStartAt rows row = .ok (decoratorStart rows row) := by
  induction row with
  | zero => rfl
  | succ row ih =>
    have habove : (rows.take (row + 1)).reverse = rows[row] :: (rows.take row).reverse := by
      rw [List.take_succ_eq_append_getElem h]
      simp
    rw [decoratorStartAt, rowAt_eq h, ok_bind, decoratorStart, habove, decoratorCount]
    split
    · rw [ih (Nat.le_of_succ_le h), Nat.add_sub_add_right]
      rfl
    · rfl

theorem textAt_eq (strategy : Strategy) {c : Capture} (h : c.startRow < rows.length) :
    strategy.textAt rows c = .ok (strategy.text? rows c) := by
  have hstart := decoratorStartAt_eq (Nat.le_of_lt h)
  cases strategy with
  | general =>
    rw [Strategy.textAt, selectRowsAt_eq]
    exact (apply_ite Except.ok _ _ _).symm
  | python =>
    simp only [Strategy.textAt, Strategy.text?, pythonText?, selectRowsAt_eq, hstart, ok_bind,
      apply_ite Except.ok]
  | typeScript =>
    simp only [Strategy.textAt, Strategy.text?, typeScriptText?, selectRowsAt_eq, signatureAt_eq,
      apply_ite Except.ok]
  | go =>
    simp only [Strategy.textAt, Strategy.text?, goText?, selectRowsAt_eq, signatureAt_eq,
      apply_ite Except.ok]
  | css =>
    -- The opening of an at-rule is on the row of the capture, which the file has.
    simp only [Strategy.textAt, Strategy.text?, cssText?, selectRowsAt_eq, rowAt_eq h,
      List.getElem?_eq_getElem h, Except.map, Option.map_some, ← apply_ite Except.ok]
  | vue =>
    rw [Strategy.textAt, selectRowsAt_eq]
    exact (apply_ite Except.ok _ _ _).symm

/-- Whatever the capture is, its rule fetches rows of the file only. -/
theorem keptTextAt_eq (strategy : Strategy) (rows : List Text) (c : Capture) :
    keptTextAt strategy rows c = .ok (keptText? strategy rows c) := by
  rw [keptTextAt, keptText?]
  cases hrow : rows[c.startRow]? with
  | none => rfl
  | some row =>
    cases row with
    | nil => rfl
    | cons => exact textAt_eq strategy (List.getElem?_eq_some_iff.mp hrow).1

end

end SourceBundle.Outline
