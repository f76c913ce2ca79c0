import SourceBundle.Proofs.Outline.Chunks
import SourceBundle.Proofs.Outline.KeptTexts
import SourceBundle.Proofs.Outline.RowNumbers

/-!
# Outlines are excerpts

Whatever a rule keeps of a capture is the head of certain rows of the file (`ruleRows`): whole rows,
of which only the last may be cut before an opening brace, perhaps without white space at the end
(`IsHead`).  The three ways to take rows give heads, and each rule takes rows in one of these ways
(`isHead_keptText?`).

Two descriptions follow.  A chunk is an excerpt of the file without the white space around it
(`IsExcerpt`), and the rows of a kept text stand on the rows of the file one by one (`LinesUp`).  The
latter goes through choosing, joining and writing, so every row of an outline is blank, a separator
or a piece of a row of the file.
-/

namespace SourceBundle.Outline

/-! ## Heads of rows -/

/-- A row, or what stands before an opening brace in it. -/
def BeforeBrace (piece row : Text) : Prop := piece = row ∨ piece ++ ['\x7b'] <+: row

theorem BeforeBrace.isPrefix {piece row : Text} (h : BeforeBrace piece row) : piece <+: row := by
  rcases h with rfl | h
  · exact List.prefix_rfl
  · exact (List.prefix_append piece _).trans h

/-- The text is that of the first rows, the last of which may be cut before an opening brace, perhaps
without the white space at its end. -/
def IsHead (rows : List Text) (x : Text) : Prop :=
  ∃ front row piece, front ++ [row] <+: rows ∧ BeforeBrace piece row ∧
    (x = Text.unrows (front ++ [piece]) ∨ x = Text.trimEnd (Text.unrows (front ++ [piece])))

theorem IsHead.mono {rows rows' : List Text} {x : Text} (h : IsHead rows x) (hpre : rows <+: rows') :
    IsHead rows' x := by
  obtain ⟨front, row, piece, hrows, hpiece, hx⟩ := h
  exact ⟨front, row, piece, hrows.trans hpre, hpiece, hx⟩

/-- The text of all rows. -/
theorem isHead_unrows {rows : List Text} (h : rows ≠ []) : IsHead rows (Text.unrows rows) := by
  obtain ⟨front, row, rfl⟩ : ∃ front row, rows = front ++ [row] :=
    ⟨rows.dropLast, rows.getLast h, (List.dropLast_concat_getLast h).symm⟩
  exact ⟨front, row, row, List.prefix_rfl, .inl rfl, .inl rfl⟩

/-- Behind rows, the last row stands as it is. -/
theorem exists_unrows_concat (front : List Text) :
    ∃ lead, ∀ last, Text.unrows (front ++ [last]) = lead ++ last := by
  induction front with
  | nil => exact ⟨[], fun last => rfl⟩
  | cons row front ih =>
    obtain ⟨lead, hlead⟩ := ih
    refine ⟨row ++ ['\n'] ++ lead, fun last => ?_⟩
    have hjoin : Text.unrows (row :: (front ++ [last])) =
        row ++ ['\n'] ++ Text.unrows (front ++ [last]) := Text.join_cons (by simp)
    rw [List.cons_append, hjoin, hlead, ← List.append_assoc]

/-! ### Headers -/

theorem beforeLast?_eq_some {mark : Char} {row head : Text}
    (h : Text.beforeLast? mark row = some head) : head ++ [mark] <+: row := by
  induction row generalizing head with
  | nil => cases h
  | cons c row ih =>
    rw [Text.beforeLast?] at h
    cases hrow : Text.beforeLast? mark row with
    | some lead =>
      simp only [hrow] at h
      obtain rfl := Option.some.inj h
      exact (List.prefix_cons_inj c).mpr (ih hrow)
    | none =>
      simp only [hrow] at h
      split at h
      · rename_i same
        obtain rfl := Option.some.inj h
        rw [same]
        exact ⟨row, rfl⟩
      · cases h

/-- Header rows are the first rows, the last of them cut before a brace behind text. -/
theorem exists_headerRows_eq {rows : List Text} (h : headerRows rows ≠ []) :
    ∃ front row piece last, front ++ [row] <+: rows ∧ BeforeBrace piece row ∧
      headerRows rows = front ++ [last] ∧
      (last = piece ∨ last = Text.trimEnd piece ∧ Text.allBlank piece = false) := by
  induction rows with
  | nil => exact absurd rfl h
  | cons row rest ih =>
    rw [headerRows] at h ⊢
    split at h
    · rename_i head hhead
      split at h
      · exact absurd rfl h
      · rename_i solid
        rw [if_neg solid]
        refine ⟨[], row, head, Text.trimEnd head, ⟨rest, rfl⟩, .inr (beforeLast?_eq_some hhead), rfl,
          .inr ⟨rfl, Bool.eq_false_iff.mpr solid⟩⟩
    · by_cases hrest : headerRows rest = []
      · rw [hrest]
        exact ⟨[], row, row, row, ⟨rest, rfl⟩, .inl rfl, rfl, .inl rfl⟩
      · obtain ⟨front, last, piece, shown, hpre, hpiece, heq, hshown⟩ := ih hrest
        exact ⟨row :: front, last, piece, shown, (List.prefix_cons_inj row).mpr hpre, hpiece,
          congrArg (row :: ·) heq, hshown⟩

theorem isHead_headerRows {rows : List Text} (h : headerRows rows ≠ []) :
    IsHead rows (Text.unrows (headerRows rows)) := by
  obtain ⟨front, row, piece, last, hpre, hpiece, heq, hlast⟩ := exists_headerRows_eq h
  refine ⟨front, row, piece, hpre, hpiece, ?_⟩
  obtain ⟨lead, hlead⟩ := exists_unrows_concat front
  rw [heq, hlead, hlead]
  rcases hlast with rfl | ⟨rfl, solid⟩
  · exact .inl rfl
  · exact .inr (Text.trimEnd_append solid lead).symm

/-! ### Preludes -/

theorem beforeFirst?_eq_some {mark : Char} {row head : Text}
    (h : Text.beforeFirst? mark row = some head) : head ++ [mark] <+: row := by
  induction row generalizing head with
  | nil => cases h
  | cons c row ih =>
    rw [Text.beforeFirst?] at h
    split at h
    · rename_i same
      obtain rfl := Option.some.inj h
      rw [same]
      exact ⟨row, rfl⟩
    · obtain ⟨lead, hlead, rfl⟩ := Option.map_eq_some_iff.mp h
      exact (List.prefix_cons_inj c).mpr (ih hlead)

theorem beforeFirst?_append (mark : Char) (t u : Text) :
    Text.beforeFirst? mark (t ++ u) =
      (Text.beforeFirst? mark t).or ((Text.beforeFirst? mark u).map (t ++ ·)) := by
  induction t with
  | nil => simp [Text.beforeFirst?]
  | cons c t ih =>
    rw [List.cons_append, Text.beforeFirst?, Text.beforeFirst?, ih]
    split
    · rfl
    · cases Text.beforeFirst? mark t <;> simp [Function.comp_def]

/-- What precedes the first brace is made of the first rows, the last of which is cut before it. -/
theorem exists_beforeFirst?_unrows {rows : List Text} (h : rows ≠ []) :
    ∃ front row piece, front ++ [row] <+: rows ∧ BeforeBrace piece row ∧
      (Text.beforeFirst? '\x7b' (Text.unrows rows)).getD (Text.unrows rows) =
        Text.unrows (front ++ [piece]) := by
  induction rows with
  | nil => exact absurd rfl h
  | cons row rest ih =>
    cases hrow : Text.beforeFirst? '\x7b' row with
    | some head =>
      refine ⟨[], row, head, ⟨rest, rfl⟩, .inr (beforeFirst?_eq_some hrow), ?_⟩
      have hfirst : Text.beforeFirst? '\x7b' (Text.unrows (row :: rest)) = some head := by
        by_cases hrest : rest = []
        · rw [hrest]
          exact hrow
        · rw [Text.unrows, Text.join_cons hrest, beforeFirst?_append, beforeFirst?_append, hrow]
          rfl
      rw [hfirst]
      rfl
    | none =>
      by_cases hrest : rest = []
      · rw [hrest]
        refine ⟨[], row, row, List.prefix_rfl, .inl rfl, ?_⟩
        rw [show Text.unrows [row] = row from rfl, hrow]
        rfl
      · obtain ⟨front, last, piece, hpre, hpiece, heq⟩ := ih hrest
        refine ⟨row :: front, last, piece, (List.prefix_cons_inj row).mpr hpre, hpiece, ?_⟩
        have hnewline : Text.beforeFirst? '\x7b' ['\n'] = none := rfl
        rw [List.cons_append, Text.unrows, Text.unrows, Text.join_cons hrest,
          Text.join_cons (by simp : front ++ [piece] ≠ []), beforeFirst?_append, beforeFirst?_append,
          hrow, hnewline, ← Text.unrows, ← Text.unrows, ← heq]
        cases Text.beforeFirst? '\x7b' (Text.unrows rest) <;> rfl

theorem isHead_prelude {rows : List Text} (h : rows ≠ []) :
    IsHead rows (prelude (Text.unrows rows)) := by
  obtain ⟨front, row, piece, hpre, hpiece, heq⟩ := exists_beforeFirst?_unrows h
  exact ⟨front, row, piece, hpre, hpiece, .inr (congrArg Text.trimEnd heq)⟩

/-! ## Rules -/

theorem isHead_selectRows? {rows : List Text} {first last : Nat} {x : Text}
    (h : selectRows? rows first last = some x) :
    IsHead ((rows.drop first).take (max last first + 1 - first)) x := by
  rw [selectRows?_eq_unrows?] at h
  obtain ⟨hne, rfl⟩ := unrows?_eq_some.mp h
  exact isHead_unrows hne

theorem isHead_signature? {rows : List Text} {first last : Nat} {x : Text}
    (h : signature? rows first last = some x) :
    IsHead ((rows.drop first).take (max last first + 1 - first)) x := by
  rw [signature?_eq_unrows?] at h
  obtain ⟨hne, rfl⟩ := unrows?_eq_some.mp h
  exact isHead_headerRows hne

/-- The row of the file on which the text kept of a capture begins: that of the capture, or of the
first decorator above a function. -/
def firstRow (strategy : Strategy) (rows : List Text) (c : Capture) : Nat :=
  match strategy with
  | .python =>
    if c.isA "definition.class" then c.startRow
    else if c.isA "definition.function" then decoratorStart rows c.startRow
    else c.startRow
  | _ => c.startRow

/-- The row of the file up to which text of a capture may be kept: that on which the capture ends, or
the header of a class or a function. -/
def lastRow (strategy : Strategy) (c : Capture) : Nat :=
  match strategy with
  | .python =>
    if c.isA "definition.class" then c.headerRow
    else if c.isA "definition.function" then c.headerRow
    else c.endRow
  | _ => c.endRow

/-- The rows of the file of which a rule keeps the first ones: at least the one on which the text
begins. -/
def ruleRows (strategy : Strategy) (rows : List Text) (c : Capture) : List Text :=
  (rows.drop (firstRow strategy rows c)).take
    (max (lastRow strategy c) (firstRow strategy rows c) + 1 - firstRow strategy rows c)

section Rules

variable {strategy : Strategy} {rows : List Text} {c : Capture} {x : Text}

theorem ruleRows_isPrefix (strategy : Strategy) (rows : List Text) (c : Capture) :
    ruleRows strategy rows c <+: rows.drop (firstRow strategy rows c) :=
  List.take_prefix _ _

/-- The rows of a rule are rows of the file, from the first row to the last. -/
theorem getElem?_of_ruleRows {i : Nat} {row : Text} (h : (ruleRows strategy rows c)[i]? = some row) :
    rows[firstRow strategy rows c + i]? = some row ∧
      firstRow strategy rows c + i ≤ max (lastRow strategy c) (firstRow strategy rows c) := by
  rw [ruleRows, List.getElem?_take] at h
  split at h
  · rename_i inside
    rw [List.getElem?_drop] at h
    exact ⟨h, by omega⟩
  · cases h

theorem firstRow_le (strategy : Strategy) (rows : List Text) (c : Capture) :
    firstRow strategy rows c ≤ c.startRow := by
  unfold firstRow
  split
  · split
    · exact Nat.le_refl _
    · split
      · exact Nat.sub_le _ _
      · exact Nat.le_refl _
  · exact Nat.le_refl _

theorem isHead_pythonText? (h : pythonText? rows c = some x) :
    IsHead (ruleRows .python rows c) x := by
  unfold pythonText? at h
  unfold ruleRows firstRow lastRow
  by_cases hclass : c.isA "definition.class"
  · simp only [hclass, if_true] at h ⊢
    exact isHead_selectRows? h
  · by_cases hfunction : c.isA "definition.function"
    · simp only [hclass, hfunction, if_true, Bool.false_eq_true, if_false] at h ⊢
      exact isHead_selectRows? h
    · simp only [hclass, hfunction, Bool.false_eq_true, if_false] at h ⊢
      split at h
      · exact isHead_selectRows? h
      · cases h

theorem isHead_cssText? (h : cssText? rows c = some x) : IsHead (ruleRows .css rows c) x := by
  have hselected := (Option.filter_eq_some_iff.mp h).1
  split at hselected
  · exact isHead_selectRows? hselected
  · split at hselected
    · obtain ⟨y, hy, rfl⟩ := Option.map_eq_some_iff.mp hselected
      rw [selectRows?_eq_unrows?] at hy
      obtain ⟨hne, rfl⟩ := unrows?_eq_some.mp hy
      exact isHead_prelude hne
    · split at hselected
      · obtain ⟨row, hrow, rfl⟩ := Option.map_eq_some_iff.mp hselected
        have hhead : IsHead [row] (prelude row) := isHead_prelude (List.cons_ne_nil row [])
        refine hhead.mono ?_
        obtain ⟨hlt, rfl⟩ := List.getElem?_eq_some_iff.mp hrow
        have hrows : ruleRows .css rows c =
            (rows.drop c.startRow).take (max c.endRow c.startRow + 1 - c.startRow) := rfl
        rw [hrows, Nat.sub_add_comm (Nat.le_max_right _ _), List.drop_eq_getElem_cons hlt,
          List.take_succ_cons]
        exact ⟨_, rfl⟩
      · cases hselected

/-- What a rule selects is the head of its rows. -/
theorem isHead_text? (h : strategy.text? rows c = some x) : IsHead (ruleRows strategy rows c) x := by
  cases strategy with
  | general =>
    simp only [Strategy.text?, generalText?] at h
    split at h
    · exact isHead_selectRows? h
    · cases h
  | python => exact isHead_pythonText? h
  | typeScript =>
    simp only [Strategy.text?, typeScriptText?] at h
    split at h
    · exact isHead_selectRows? h
    · split at h
      · exact isHead_signature? h
      · cases h
  | go =>
    simp only [Strategy.text?, goText?] at h
    split at h
    · exact isHead_signature? h
    · split at h
      · exact isHead_selectRows? h
      · cases h
  | css => exact isHead_cssText? h
  | vue =>
    simp only [Strategy.text?, vueText?] at h
    split at h
    · exact isHead_selectRows? h
    · cases h

/-- Nothing is kept of a capture that starts behind the last row. -/
theorem startRow_lt_of_keptText? (h : keptText? strategy rows c = some x) :
    c.startRow < rows.length := by
  by_contra hbehind
  rw [keptText?, List.getElem?_eq_none (Nat.not_lt.mp hbehind)] at h
  cases h

theorem isHead_keptText? (h : keptText? strategy rows c = some x) :
    IsHead (ruleRows strategy rows c) x := by
  unfold keptText? at h
  split at h
  · cases h
  · cases h
  · exact isHead_text? h

end Rules

/-! ## Excerpts -/

/-- The text of the rows of the file from `first` to `last`, of which the last may be cut before an
opening brace. -/
structure IsExcerpt (rows : List Text) (first last : Nat) (x : Text) : Prop where
  ordered : first ≤ last
  inside : last < rows.length
  text : ∃ piece, BeforeBrace piece rows[last] ∧
    x = Text.unrows ((rows.drop first).take (last - first) ++ [piece])

/-- But for white space around it a head is an excerpt. -/
theorem IsHead.exists_excerpt {rows : List Text} {first : Nat} {x : Text}
    (h : IsHead (rows.drop first) x) :
    ∃ last y, IsExcerpt rows first last y ∧ Text.trim x = Text.trim y := by
  obtain ⟨front, row, piece, hpre, hpiece, hx⟩ := h
  have hlength : front.length + 1 ≤ rows.length - first := by
    simpa using hpre.length_le
  have hinside : first + front.length < rows.length := by omega
  have hrow : rows[first + front.length] = row := by
    have hget := hpre.getElem (i := front.length) (by simp)
    simpa using hget.symm
  have hfront : (rows.drop first).take (first + front.length - first) = front := by
    obtain ⟨rest, hrest⟩ := hpre
    rw [← hrest, Nat.add_sub_cancel_left]
    simp
  refine ⟨first + front.length, Text.unrows (front ++ [piece]),
    ⟨Nat.le_add_right _ _, hinside, piece, hrow ▸ hpiece, by rw [hfront]⟩, ?_⟩
  rcases hx with rfl | rfl
  · rfl
  · exact Text.trim_trimEnd _

/-! ## Rows of kept texts -/

/-- Each piece is the beginning of the row with the same number. -/
def LinesUp (pieces rows : List Text) : Prop :=
  ∀ (i : Nat) (piece : Text), pieces[i]? = some piece → ∃ row, rows[i]? = some row ∧ piece <+: row

theorem LinesUp.trans {as bs cs : List Text} (h : LinesUp as bs) (h' : LinesUp bs cs) :
    LinesUp as cs := by
  intro i a ha
  obtain ⟨b, hb, hab⟩ := h i a ha
  obtain ⟨c, hc, hbc⟩ := h' i b hb
  exact ⟨c, hc, hab.trans hbc⟩

/-- First rows of which the last may be cut line up with the rows. -/
theorem linesUp_concat {front rows : List Text} {row piece : Text} (hpre : front ++ [row] <+: rows)
    (hpiece : piece <+: row) : LinesUp (front ++ [piece]) rows := by
  obtain ⟨rest, rfl⟩ := hpre
  intro i p hp
  rcases Nat.lt_trichotomy i front.length with hlt | rfl | hgt
  · rw [List.getElem?_append_left hlt] at hp
    refine ⟨p, ?_, List.prefix_rfl⟩
    rw [List.append_assoc, List.getElem?_append_left hlt, hp]
  · obtain rfl : piece = p := by simpa using hp
    exact ⟨row, by simp, hpiece⟩
  · have hlong : (front ++ [piece]).length ≤ i := by simpa using Nat.succ_le_of_lt hgt
    rw [List.getElem?_eq_none hlong] at hp
    cases hp

/-- The rows of a head line up with the rows that it is the head of. -/
theorem IsHead.linesUp {rows : List Text} (hrows : ∀ row ∈ rows, '\n' ∉ row) {x : Text}
    (h : IsHead rows x) : LinesUp (Text.rows x) rows := by
  obtain ⟨front, row, piece, hpre, hpiece, hx⟩ := h
  have hfront : ∀ r ∈ front ++ [piece], '\n' ∉ r := by
    intro r hr
    rcases List.mem_append.mp hr with hr | hr
    · exact hrows r (hpre.subset (List.mem_append_left _ hr))
    · rw [List.mem_singleton.mp hr]
      have hrow := hrows row (hpre.subset (List.mem_append_right _ List.mem_cons_self))
      exact fun hmem => hrow (hpiece.isPrefix.subset hmem)
  have hwhole : LinesUp (Text.rows (Text.unrows (front ++ [piece]))) rows := by
    rw [Text.rows_unrows (by simp) hfront]
    exact linesUp_concat hpre hpiece.isPrefix
  rcases hx with rfl | rfl
  · exact hwhole
  · obtain ⟨front', last, row', htrimmed, hpre', hlast⟩ :=
      Text.exists_rows_of_prefix (Text.trimEnd_isPrefix (Text.unrows (front ++ [piece])))
    rw [htrimmed]
    exact (linesUp_concat hpre' hlast).trans hwhole

/-- The rows of the text kept of a capture stand on the rows of its rule. -/
theorem linesUp_keptText? {strategy : Strategy} {rows : List Text}
    (hrows : ∀ row ∈ rows, '\n' ∉ row) {c : Capture} {x : Text}
    (h : keptText? strategy rows c = some x) :
    LinesUp (Text.rows x) (ruleRows strategy rows c) :=
  (isHead_keptText? h).linesUp fun row hrow =>
    hrows row (List.mem_of_mem_drop ((ruleRows_isPrefix strategy rows c).subset hrow))

/-! ## Outlines -/

/-- A row that an outline may have: the separator, a blank row or a piece of a row of the file. -/
def IsExtracted (rows : List Text) (row : Text) : Prop :=
  row = separator ∨ Text.allBlank row = true ∨ ∃ source ∈ rows, row <:+: source

theorem eq_nil_of_blank {w : Text} (hw : Text.allBlank w = true) (h : w ⊆ separator) : w = [] := by
  have hsolid : separator.any Text.isBlank = false := by decide
  rw [List.eq_nil_iff_forall_not_mem]
  intro c hc
  have hblank : Text.isBlank c = true := List.all_eq_true.mp hw c hc
  exact Bool.eq_false_iff.mp hsolid (List.any_eq_true.mpr ⟨c, h hc, hblank⟩)

theorem IsExtracted.of_append_blank {rows : List Text} {u w : Text} (hw : Text.allBlank w = true)
    (h : IsExtracted rows (u ++ w)) : IsExtracted rows u := by
  rcases h with h | h | ⟨source, hsource, h⟩
  · have hnil : w = [] := eq_nil_of_blank hw (h ▸ List.subset_append_right u w)
    rw [hnil, List.append_nil] at h
    exact .inl h
  · rw [Text.allBlank, List.all_append, Bool.and_eq_true] at h
    exact .inr (.inl h.1)
  · exact .inr (.inr ⟨source, hsource, (List.prefix_append u w).isInfix.trans h⟩)

theorem IsExtracted.of_blank_append {rows : List Text} {u w : Text} (hw : Text.allBlank w = true)
    (h : IsExtracted rows (w ++ u)) : IsExtracted rows u := by
  rcases h with h | h | ⟨source, hsource, h⟩
  · have hnil : w = [] := eq_nil_of_blank hw (h ▸ List.subset_append_left w u)
    rw [hnil, List.nil_append] at h
    exact .inl h
  · rw [Text.allBlank, List.all_append, Bool.and_eq_true] at h
    exact .inr (.inl h.2)
  · exact .inr (.inr ⟨source, hsource, (List.suffix_append w u).isInfix.trans h⟩)

/-- An outline is extracted from its file: each of its rows is a separator, blank or a piece of a row
of the file, and each chunk is an excerpt without the white space around it, the rows of which are
rows of the file.  Whatever the captures are, no row is fetched that the file does not have, and those
that start behind the last row are passed over. -/
theorem rows_ofText (language : Language) (t : Text) (captures : List Capture) :
    (∀ row ∈ Text.rows (ofText language t captures), IsExtracted (Text.rows t) row) ∧
      (∀ chunk ∈ chunks (strategyFor language) t captures, ∃ first last x,
        IsExcerpt (Text.rows t) first last x ∧ first ≤ chunk.startRow ∧
          chunk.startRow < (Text.rows t).length ∧ chunk.content = Text.trim x) ∧
      ∀ c ∈ captures,
        keptTextAt (strategyFor language) (Text.rows t) c =
          .ok (keptText? (strategyFor language) (Text.rows t) c) ∧
        ((Text.rows t).length ≤ c.startRow →
          keptText? (strategyFor language) (Text.rows t) c = none) := by
  have source : ∀ chunk ∈ chunks (strategyFor language) t captures, ∃ c x,
      keptText? (strategyFor language) (Text.rows t) c = some x ∧
        chunk.content = Text.trim x ∧ c.startRow = chunk.startRow := by
    intro chunk hchunk
    obtain ⟨c, -, selects, start⟩ := exists_capture_of_mem_chunksFrom hchunk
    obtain ⟨x, hx, hcontent⟩ := Option.map_eq_some_iff.mp selects
    exact ⟨c, x, hx, hcontent.symm, start⟩
  have hcontent : ∀ chunk ∈ chunks (strategyFor language) t captures,
      ∀ row ∈ Text.rows chunk.content, IsExtracted (Text.rows t) row := by
    intro chunk hchunk
    obtain ⟨c, x, hx, heq, -⟩ := source chunk hchunk
    rw [heq]
    refine Text.forall_rows_trim (fun u w => .of_append_blank) (fun w u => .of_blank_append) ?_
    intro row hrow
    obtain ⟨i, hi⟩ := List.mem_iff_getElem?.mp hrow
    have haligned := linesUp_keptText? (fun row => Text.newline_not_mem_of_mem_rows) hx
    obtain ⟨original, horiginal, hpre⟩ := haligned i row hi
    have hsource := (getElem?_of_ruleRows horiginal).1
    exact .inr (.inr ⟨original, List.mem_of_getElem? hsource, hpre.isInfix⟩)
  refine ⟨?_, ?_, ?_⟩
  · refine forall_rows_write (fun u w => .of_append_blank) (fun w u => .of_blank_append)
      (.inr (.inl rfl)) (.inl rfl) fun chunk hchunk row hrow => ?_
    obtain ⟨original, horiginal, hrow⟩ := mem_rows_joinAdjacent hchunk hrow
    exact hcontent original (longestPerRow_subset _ horiginal) row hrow
  · intro chunk hchunk
    obtain ⟨c, x, hx, heq, start⟩ := source chunk hchunk
    obtain ⟨last, y, hexcerpt, htrim⟩ :=
      ((isHead_keptText? hx).mono (ruleRows_isPrefix _ _ c)).exists_excerpt
    refine ⟨_, last, y, hexcerpt, ?_, ?_, heq.trans htrim⟩
    · exact start ▸ firstRow_le _ _ c
    · exact start ▸ startRow_lt_of_keptText? hx
  · refine fun c _ => ⟨keptTextAt_eq _ _ c, fun hbehind => ?_⟩
    rw [Option.eq_none_iff_forall_ne_some]
    exact fun x hx => absurd (startRow_lt_of_keptText? hx) (Nat.not_lt.mpr hbehind)

-- A decorator, a header of two rows, and a capture that starts behind the last row.
example :
    ofText .python "@cache\ndef f(a,\n      b):\n    return a\n".toList
        [⟨"definition.function".toList, 1, 3, 12, some 2⟩, ⟨"comment".toList, 9, 9, 3, none⟩] =
      "@cache\ndef f(a,\n      b):".toList := by
  decide +kernel

end SourceBundle.Outline
