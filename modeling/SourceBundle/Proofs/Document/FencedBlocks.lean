import SourceBundle.Proofs.Document.MarkdownReading
import SourceBundle.Proofs.Text.Rows

/-!
# Where fenced blocks end

A reader of markdown goes by rows.  The row that opens a block begins with a run of backticks, and
the block ends at the first row behind it that consists of at least as many (`closes`).

A run that is longer than those in the content is not found in the content, so the block ends at its
own closing row exactly when that row has enough backticks (`findIdx_closes_iff`).  The closing row
is the fence.  The opening row is the fence with the extension right behind it, so its run is the
fence alone exactly when the extension does not begin with a backtick; otherwise the closing row is
too short, and does not close the block (`isClosedByOwnRow_iff`).
-/

namespace SourceBundle.Document.Markdown

open Text

/-! ## Rows of fences -/

/-- The number of backticks at the start of a row. -/
def leadingBackticks (row : Text) : Nat := (row.takeWhile (· = backtick)).length

/-- The row closes a block that was opened by `k` backticks: it has at least as many at its start,
and behind them nothing but white space. -/
def closes (k : Nat) (row : Text) : Bool :=
  k ≤ leadingBackticks row && allBlank (row.dropWhile (· = backtick))

theorem leadingBackticks_fence (n : Nat) (t : Text) :
    leadingBackticks (List.replicate n backtick ++ t) = n + leadingBackticks t := by
  have hall : ∀ c ∈ List.replicate n backtick, decide (c = backtick) = true := fun c hc =>
    decide_eq_true (List.eq_of_mem_replicate hc)
  rw [leadingBackticks, List.takeWhile_append_of_pos hall, List.length_append,
    List.length_replicate, leadingBackticks]

theorem leadingBackticks_eq_zero_iff {t : Text} :
    leadingBackticks t = 0 ↔ t.head? ≠ some backtick := by
  cases t with
  | nil => simp [leadingBackticks]
  | cons c t => by_cases hc : c = backtick <;> simp [leadingBackticks, hc]

/-- A fence closes what was opened by no more backticks. -/
theorem closes_fence {k n : Nat} : closes k (List.replicate n backtick) = true ↔ k ≤ n := by
  have hlead : leadingBackticks (List.replicate n backtick) = n := by
    have h := leadingBackticks_fence n []
    rwa [List.append_nil] at h
  rw [closes, hlead, List.dropWhile_replicate]
  simp [allBlank]

/-- A row that closes a block holds the run of backticks for which it does. -/
theorem infix_of_closes {k : Nat} {row : Text} (h : closes k row = true) :
    List.replicate k backtick <:+: row := by
  rw [closes, Bool.and_eq_true, decide_eq_true_eq] at h
  have hrun : row.takeWhile (· = backtick) = List.replicate (leadingBackticks row) backtick := by
    refine List.eq_replicate_iff.mpr ⟨rfl, fun c hc => ?_⟩
    simpa using List.mem_takeWhile_imp hc
  have hlead : List.replicate k backtick <+: row.takeWhile (· = backtick) := by
    rw [hrun]
    exact ⟨List.replicate (leadingBackticks row - k) backtick, by
      rw [List.replicate_append_replicate, Nat.add_sub_cancel' h.1]⟩
  exact (hlead.trans (List.takeWhile_prefix _)).isInfix

/-- Behind the row that opens a block, the first row that closes it is its own closing row exactly
when that has enough backticks. -/
theorem findIdx_closes_iff {k n : Nat} {content : Text} (hk : longestRun content < k)
    (below : List Text) :
    (rows content ++ List.replicate n backtick :: below).findIdx (closes k) =
      (rows content).length ↔ k ≤ n := by
  have hinside : ∀ row ∈ rows content, closes k row = false := by
    intro row hrow
    rw [Bool.eq_false_iff]
    intro hcloses
    have hrun : List.replicate k backtick <:+: content :=
      (infix_of_closes hcloses).trans (infix_of_mem_pieces hrow)
    have hle := le_longestRun hrun
    omega
  have hskip : (rows content ++ List.replicate n backtick :: below).findIdx (closes k) =
      (rows content).length + (List.replicate n backtick :: below).findIdx (closes k) := by
    rw [List.findIdx_append, if_neg, Nat.add_comm]
    rw [List.findIdx_lt_length]
    rintro ⟨row, hrow, hcloses⟩
    rw [hinside row hrow] at hcloses
    cases hcloses
  rw [hskip, ← closes_fence (k := k) (n := n), List.findIdx_cons]
  cases closes k (List.replicate n backtick) <;> simp

/-! ## Rows of documents -/

/-- The row with the heading of a file. -/
def headingRow (f : TextFile) : Text := "## File: ".toList ++ f.path

/-- The row that opens the block of a file. -/
def openingRow (fence : Text) (f : TextFile) : Text := fence ++ infoString f.path

/-- The rows of a file under its heading. -/
def blockRows (fence : Text) (f : TextFile) : List Text :=
  headingRow f :: openingRow fence f :: (rows f.content ++ [fence, []])

/-- Behind the row that opens the block of a file, the first row that closes it is the closing row of
this block.  `below` are the rows that follow the block's closing row. -/
def IsClosedByOwnRow (fence : Text) (f : TextFile) (below : List Text) : Prop :=
  (rows f.content ++ fence :: below).findIdx (closes (leadingBackticks (openingRow fence f))) =
    (rows f.content).length

variable {mark : Text} {s : OutputSettings} {files : List TextFile}

theorem rows_fileBlock_append (hmark : '\n' ∉ mark) {f : TextFile} (hpath : '\n' ∉ f.path)
    (rest : Text) : rows (fileBlock mark f ++ rest) = blockRows mark f ++ rows rest := by
  have hheading : '\n' ∉ headingRow f := List.not_mem_append (by decide) hpath
  have hopening : '\n' ∉ openingRow mark f :=
    List.not_mem_append hmark fun hmem => hpath (infoString_subset f.path hmem)
  have hsplit : fileBlock mark f ++ rest =
      headingRow f ++ '\n' :: (openingRow mark f ++ '\n' :: (f.content ++ '\n' ::
        (mark ++ '\n' :: ([] ++ '\n' :: rest)))) := by
    unfold fileBlock headingRow openingRow
    simp only [List.append_assoc, List.cons_append, List.nil_append]
  have hrows : ∀ row : Text, '\n' ∉ row → ∀ t, rows (row ++ '\n' :: t) = row :: rows t :=
    fun row hrow t => pieces_append_cons hrow t
  rw [hsplit, hrows _ hheading, hrows _ hopening, rows_append_newline, hrows _ hmark,
    hrows _ List.not_mem_nil, blockRows]
  simp only [List.cons_append, List.append_assoc, List.nil_append]

theorem rows_flatMap_fileBlock_append (hmark : '\n' ∉ mark)
    (hpaths : ∀ f ∈ files, '\n' ∉ f.path) (rest : Text) :
    rows (files.flatMap (fileBlock mark) ++ rest) =
      files.flatMap (blockRows mark) ++ rows rest := by
  induction files with
  | nil => rfl
  | cons f files ih =>
    rw [List.flatMap_cons, List.flatMap_cons, List.append_assoc, List.append_assoc,
      rows_fileBlock_append hmark (hpaths f List.mem_cons_self),
      ih fun g hg => hpaths g (List.mem_cons_of_mem _ hg)]

theorem newline_not_mem_fence (files : List TextFile) : '\n' ∉ fence files := by
  intro hmem
  exact absurd (List.eq_of_mem_replicate hmem) (by decide)

/-- The rows of a document in front of the files. -/
def rowsInFront (s : OutputSettings) (files : List TextFile) (paths emptyDirs : List Text) :
    List Text :=
  rows (frontPart (parts s files paths emptyDirs) ++ "# Files\n".toList)

/-- The rows of a document behind the files. -/
def rowsBehind (s : OutputSettings) (files : List TextFile) (paths emptyDirs : List Text) :
    List Text :=
  (rows (ending (parts s files paths emptyDirs))).dropLast

/-- The rows of a document are those in front of the files, those of the files one after the other,
and those behind them. -/
theorem rows_render (hs : s.style = .markdown) (hpaths : ∀ f ∈ files, '\n' ∉ f.path)
    (paths emptyDirs : List Text) :
    rows (render s files paths emptyDirs) =
      rowsInFront s files paths emptyDirs ++ files.flatMap (blockRows (fence files)) ++
        rowsBehind s files paths emptyDirs := by
  have hconcat := congrArg rows (render_concat hs files paths emptyDirs)
  have hfiles : filesPart files =
      "# Files\n".toList ++ '\n' :: files.flatMap (fileBlock (fence files)) := rfl
  have hfront : frontPart (parts s files paths emptyDirs) ++ filesPart files ++
      ending (parts s files paths emptyDirs) =
      (frontPart (parts s files paths emptyDirs) ++ "# Files\n".toList) ++ '\n' ::
        (files.flatMap (fileBlock (fence files)) ++
          ending (parts s files paths emptyDirs)) := by
    simp only [hfiles, List.append_assoc, List.cons_append]
  rw [hfront, rows_append_newline, rows_append_newline,
    rows_flatMap_fileBlock_append (newline_not_mem_fence files) hpaths] at hconcat
  have hlast := congrArg List.dropLast hconcat
  have hne : rows (ending (parts s files paths emptyDirs)) ≠ [] := pieces_ne_nil '\n' _
  have hnil : rows [] = [[]] := rfl
  rw [hnil, List.dropLast_concat, ← List.append_assoc, List.dropLast_append_of_ne_nil hne] at hlast
  exact hlast

/-- The rows of a document behind the closing row of a block, of which the files `after` follow. -/
def rowsBelow (s : OutputSettings) (files after : List TextFile) (paths emptyDirs : List Text) :
    List Text :=
  [] :: (after.flatMap (blockRows (fence files)) ++ rowsBehind s files paths emptyDirs)

/-! ## Blocks and their closing rows -/

/-- The run that opens a block goes on into an extension that begins with backticks. -/
theorem leadingBackticks_openingRow (files : List TextFile) (f : TextFile) :
    leadingBackticks (openingRow (fence files) f) =
      fenceLength files + leadingBackticks (infoString f.path) :=
  leadingBackticks_fence _ _

theorem isClosedByOwnRow_iff {f : TextFile} (hf : f ∈ files) (below : List Text) :
    IsClosedByOwnRow (fence files) f below ↔
      (infoString f.path).head? ≠ some backtick := by
  have hrun := leadingBackticks_openingRow files f
  have hlonger : longestRun f.content < leadingBackticks (openingRow (fence files) f) := by
    have hfence := longestRun_lt_fenceLength hf
    omega
  have hfirst := findIdx_closes_iff (n := fenceLength files) hlonger below
  rw [IsClosedByOwnRow, ← leadingBackticks_eq_zero_iff]
  exact hfirst.trans (by omega)

/-- **A block is closed by its own row unless its extension begins with a backtick.**  The rows of a
document have each file's block in its place.  Behind the fence itself, the first row that closes it
is the closing row of the block, whatever the contents and the paths.  Behind the opening row it is
so exactly when no backtick of the extension makes the run longer. -/
theorem closedByOwnRow_iff (hs : s.style = .markdown) (hpaths : ∀ f ∈ files, '\n' ∉ f.path)
    (paths emptyDirs : List Text) {before after : List TextFile} {f : TextFile}
    (hfiles : files = before ++ f :: after) :
    rows (render s files paths emptyDirs) =
        rowsInFront s files paths emptyDirs ++ before.flatMap (blockRows (fence files)) ++
          headingRow f :: openingRow (fence files) f ::
            (rows f.content ++ fence files ::
              rowsBelow s files after paths emptyDirs) ∧
      (rows f.content ++ fence files :: rowsBelow s files after paths emptyDirs).findIdx
          (closes (fenceLength files)) = (rows f.content).length ∧
      (IsClosedByOwnRow (fence files) f (rowsBelow s files after paths emptyDirs) ↔
        (infoString f.path).head? ≠ some backtick) := by
  have hf : f ∈ files := by rw [hfiles]; simp
  refine ⟨?_, ?_, isClosedByOwnRow_iff hf _⟩
  · have hblocks : files.flatMap (blockRows (fence files)) =
        before.flatMap (blockRows (fence files)) ++
          (blockRows (fence files) f ++
            after.flatMap (blockRows (fence files))) := by
      conv_lhs => rw [hfiles]
      rw [List.flatMap_append, List.flatMap_cons, ← hfiles]
    rw [rows_render hs hpaths, hblocks, rowsBelow, blockRows]
    simp only [List.append_assoc, List.cons_append, List.nil_append]
  · exact (findIdx_closes_iff (longestRun_lt_fenceLength hf) _).mpr le_rfl

/-- A content with a row that would close a shorter fence, and a file with a backtick for its
extension. -/
theorem closedByOwnRow_twoFiles :
    let s : OutputSettings := {}
    let first : TextFile := ⟨"a.md".toList, "````  \n## File: b".toList⟩
    let second : TextFile := ⟨"b.`".toList, []⟩
    s.style = .markdown ∧ (∀ f ∈ [first, second], '\n' ∉ f.path) ∧
      IsClosedByOwnRow (fence [first, second]) first
        (rowsBelow s [first, second] [second] [] []) ∧
      ¬ IsClosedByOwnRow (fence [first, second]) second
        (rowsBelow s [first, second] [] [] []) := by
  intro s first second
  have hpaths : ∀ f ∈ [first, second], '\n' ∉ f.path := by decide
  have hfront : [first, second] = [] ++ first :: [second] := rfl
  have hlast : [first, second] = [first] ++ second :: [] := rfl
  obtain ⟨-, -, hfirst⟩ := closedByOwnRow_iff (s := s) rfl hpaths [] [] hfront
  obtain ⟨-, -, hsecond⟩ := closedByOwnRow_iff (s := s) rfl hpaths [] [] hlast
  exact ⟨rfl, hpaths, hfirst.mpr (by decide), fun hclosed => hsecond.mp hclosed (by decide)⟩

/-- A block of a file with a backtick for its extension is not closed by its own row. -/
theorem not_isClosedByOwnRow_backtick :
    ¬ ∀ (s : OutputSettings) (files before after : List TextFile) (f : TextFile)
        (paths emptyDirs : List Text),
      s.style = .markdown → (∀ f ∈ files, '\n' ∉ f.path) → files = before ++ f :: after →
        IsClosedByOwnRow (fence files) f (rowsBelow s files after paths emptyDirs) := by
  intro hall
  have hclosed := hall {} [⟨"a.`".toList, "x".toList⟩] [] [] _ [] [] rfl (by decide) rfl
  exact (isClosedByOwnRow_iff (List.mem_singleton_self _) _).mp hclosed (by decide)

end SourceBundle.Document.Markdown
