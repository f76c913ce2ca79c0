import SourceBundle.Proofs.Comments.Segments
import SourceBundle.Proofs.Text.LineEnds

/-!
# Docstrings

In Python a triple-quoted literal that makes a statement of its own documents something, and it is
removed with the comments.  Whether a literal begins a statement depends on what is open: inside
brackets, and behind a line that ends in a backslash, a new line begins none (`IsContinued`).

The scanner looks at the line only.  It drops a triple-quoted literal exactly when nothing but white
space is left before it on its line (`removeComments_tripleQuoted`), so a literal at the beginning of
a line is dropped wherever that line stands (`removeComments_drops_argument`).

The text is divided by the grammar of Python (`IsPython`), and what is left of each segment is told
from the row on which it stands (`leftOf`).  The scanner stays in step with the segments, one by one
(`strip_python_segment`) and then all of them (`strip_python`).
-/

namespace SourceBundle

open Text

/-! ## The row on which a text ends -/

/-- What stands behind the last line feed of a text. -/
def Text.lastRow (t : Text) : Text := (t.reverse.takeWhile (· != '\n')).reverse

theorem Text.lastRow_concat (t : Text) (c : Char) :
    lastRow (t ++ [c]) = if c = '\n' then [] else lastRow t ++ [c] := by
  by_cases hc : c = '\n'
  · simp [lastRow, hc]
  · simp [lastRow, hc]

namespace Comments

/-- A line is bare when the row on which the text ends is blank. -/
theorem bareAfter_true (t : Text) : bareAfter true t = allBlank (lastRow t) := by
  induction t using List.reverseRecOn with
  | nil => rfl
  | append_singleton t c ih =>
    rw [bareAfter_append, ih, lastRow_concat]
    by_cases hc : c = '\n'
    · simp [bareAfter, hc, allBlank]
    · simp [bareAfter, hc, allBlank, List.all_append]

/-- On a line that has been bare so far, more can be bare behind it. -/
theorem bareAfter_mono {isBare isBare' : Bool} (h : isBare = true → isBare' = true) {t : Text}
    (hbare : bareAfter isBare t = true) : bareAfter isBare' t = true := by
  induction t generalizing isBare isBare' with
  | nil => exact h hbare
  | cons c t ih =>
    refine ih (fun hc => ?_) hbare
    rw [Bool.or_eq_true, Bool.and_eq_true] at hc ⊢
    exact hc.imp_right (And.imp_left h)

/-- A line is not bare behind a character that is not blank. -/
theorem bareAfter_concat_of_solid {c : Char} (hc : isBlank c = false) (isBare : Bool) (t : Text) :
    bareAfter isBare (t ++ [c]) = false := by
  rw [bareAfter_append]
  simp [bareAfter, hc, ne_newline_of_solid hc]

/-! ## Texts of Python -/

/-- The segment may stand in front of `rest` in a text of Python.  Code has no quotes and number signs
in it; a literal ends at its first closing delimiter, and an empty one between single delimiters is
not followed by a third; a comment goes on to the end of its line. -/
def Segment.FitsPython (rest : Text) : Segment → Prop
  | code t => ∀ c ∈ t, c ∉ ['"', '\'', '#']
  | literal quote inside => quote ∈ Syntax.python.quotes ∧ Encloses quote inside ∧
      (quote.isAcrossLines = false → inside = [] → rest.head? ≠ quote.delimiter.head?)
  | lineComment mark words => mark = ['#'] ∧ '\n' ∉ words ∧ (rest = [] ∨ rest.head? = some '\n')
  | blockComment _ _ => False

theorem fitsPython_code {t : Text} (h : (t.all fun c => c ∉ ['"', '\'', '#']) = true)
    (rest : Text) : (Segment.code t).FitsPython rest :=
  fun c hc => of_decide_eq_true (List.all_eq_true.mp h c hc)

/-- The segments make up a text of Python. -/
def IsPython : List Segment → Prop
  | [] => True
  | segment :: rest => segment.FitsPython (textOf rest) ∧ IsPython rest

theorem IsPython.of_append {before more : List Segment} (h : IsPython (before ++ more)) :
    IsPython more := by
  induction before with
  | nil => exact h
  | cons segment rest ih => exact ih h.2

/-- What is left of a segment when comments are removed: of a triple-quoted literal on a bare line,
as of a comment, its line feeds. -/
def Segment.left (isBare : Bool) (segment : Segment) : Text :=
  match segment with
  | literal quote _ =>
    if quote.isAcrossLines && isBare then segment.text.filter (· == '\n') else segment.text
  | _ => segment.uncommented

/-- What is left of segments that follow each other, the first of them on a line that is bare or
not. -/
def leftOf (isBare : Bool) : List Segment → Text
  | [] => []
  | segment :: rest =>
    segment.left isBare ++ leftOf (bareAfter isBare (segment.left isBare)) rest

theorem leftOf_append (isBare : Bool) (segments more : List Segment) :
    leftOf isBare (segments ++ more) =
      leftOf isBare segments ++ leftOf (bareAfter isBare (leftOf isBare segments)) more := by
  induction segments generalizing isBare with
  | nil => rfl
  | cons segment rest ih =>
    rw [List.cons_append, leftOf, leftOf, ih, List.append_assoc, bareAfter_append]

/-! ## Scanning texts of Python -/

/-- The delimiters of Python: one or three of the same quotation mark. -/
theorem python_quote_cases {quote : Quote} (h : quote ∈ Syntax.python.quotes) :
    ∃ c, (c = '"' ∨ c = '\'') ∧
      (quote = .acrossLines [c, c, c] ∨ quote = .inLine [c]) := by
  simp only [Syntax.python, List.mem_cons, List.not_mem_nil, or_false] at h
  rcases h with rfl | rfl | rfl | rfl
  · exact ⟨'"', .inl rfl, .inl rfl⟩
  · exact ⟨'\'', .inr rfl, .inl rfl⟩
  · exact ⟨'"', .inl rfl, .inr rfl⟩
  · exact ⟨'\'', .inr rfl, .inr rfl⟩

/-- A literal between single delimiters does not begin with three of them. -/
theorem not_three_isPrefix {c : Char} (hc : c ≠ '\\') {inside rest : Text}
    (h : Encloses (.inLine [c]) inside) (hempty : inside = [] → rest.head? ≠ some c) :
    ¬ [c, c, c] <+: c :: (inside ++ c :: rest) := by
  rw [List.cons_prefix_cons, and_iff_right rfl]
  cases h with
  | nil =>
    rw [List.nil_append, List.cons_prefix_cons, and_iff_right rfl]
    rintro ⟨more, hmore⟩
    exact hempty rfl (by rw [← hmore]; rfl)
  | escape e _ =>
    rw [List.cons_append, List.cons_prefix_cons]
    exact fun hpre => hc hpre.1
  | plain _ _ hnone _ =>
    rw [List.cons_append, List.cons_prefix_cons]
    exact fun hpre => hnone ⟨_, congrArg (· :: _) hpre.1⟩

/-- A quotation mark opens no literal of the other one. -/
theorem quoteLength?_of_other {c d : Char} (hne : d ≠ c) {quote : Quote} {delimiter : Text}
    (hdelimiter : quote.delimiter = d :: delimiter) (t : Text) : quote.length? (c :: t) = none := by
  refine quoteLength?_eq_none ?_
  rw [hdelimiter, List.cons_prefix_cons]
  exact fun hpre => hne hpre.1

/-- A literal of Python is found as a whole, and it is dropped if it is triple-quoted on a bare
line. -/
theorem spanAt?_python_literal {quote : Quote} {inside rest : Text}
    (h : (Segment.literal quote inside).FitsPython rest) (isBare : Bool) :
    spanAt? .python isBare ((Segment.literal quote inside).text ++ rest) =
      some ((Segment.literal quote inside).text.length,
        if quote.isAcrossLines && isBare then .erased else .copied) := by
  obtain ⟨hquote, hinside, hempty⟩ := h
  obtain ⟨c, hc, hkind⟩ := python_quote_cases hquote
  have hescape : c ≠ '\\' := by rcases hc with rfl | rfl <;> decide
  have hline : c ≠ '\n' := by rcases hc with rfl | rfl <;> decide
  have hcharacter : quote ≠ .character := by rcases hkind with rfl | rfl <;> simp
  obtain ⟨d, hdelimiter⟩ : ∃ d, quote.delimiter = c :: d := by
    rcases hkind with rfl | rfl
    · exact ⟨[c, c], rfl⟩
    · exact ⟨[], rfl⟩
  have hlength := quoteLength?_encloses hcharacter hinside hdelimiter hescape hline rest
  -- A single delimiter is tried when three of them have been.
  have hthree : quote = .inLine [c] → ∀ delimiter, delimiter = [c, c, c] →
      (Quote.acrossLines delimiter).length? ((Segment.literal quote inside).text ++ rest) = none := by
    rintro rfl delimiter rfl
    have hnot := not_three_isPrefix hescape hinside (hempty rfl)
    exact quoteLength?_eq_none (by simpa [Segment.text, Quote.delimiter] using hnot)
  rcases hkind with rfl | rfl <;> rcases hc with rfl | rfl
  · have hquotes : Syntax.python.quotes = [] ++ .acrossLines ['"', '"', '"'] ::
        [.acrossLines ['\'', '\'', '\''], .inLine ['"'], .inLine ['\'']] := rfl
    exact spanAt?_of_first_literal hquotes hlength (by simp)
  · have hquotes : Syntax.python.quotes = [.acrossLines ['"', '"', '"']] ++
        .acrossLines ['\'', '\'', '\''] :: [.inLine ['"'], .inLine ['\'']] := rfl
    refine spanAt?_of_first_literal hquotes hlength ?_
    exact List.forall_mem_singleton.mpr (quoteLength?_of_other (by decide) rfl _)
  · have hquotes : Syntax.python.quotes = [.acrossLines ['"', '"', '"'],
        .acrossLines ['\'', '\'', '\'']] ++ .inLine ['"'] :: [.inLine ['\'']] := rfl
    refine spanAt?_of_first_literal hquotes hlength (List.forall_mem_cons.mpr ⟨?_, ?_⟩)
    · exact hthree rfl _ rfl
    · exact List.forall_mem_singleton.mpr (quoteLength?_of_other (by decide) rfl _)
  · have hquotes : Syntax.python.quotes = [.acrossLines ['"', '"', '"'],
        .acrossLines ['\'', '\'', '\''], .inLine ['"']] ++ .inLine ['\''] :: [] := rfl
    refine spanAt?_of_first_literal hquotes hlength (List.forall_mem_cons.mpr ⟨?_, ?_⟩)
    · exact quoteLength?_of_other (by decide) rfl _
    · refine List.forall_mem_cons.mpr ⟨hthree rfl _ rfl, ?_⟩
      exact List.forall_mem_singleton.mpr (quoteLength?_of_other (by decide) rfl _)

/-- No quotation mark and no number sign opens nothing. -/
theorem spanAt?_python_code {c : Char} (hc : c ∉ ['"', '\'', '#']) (isBare : Bool) (t : Text) :
    spanAt? .python isBare (c :: t) = none := by
  refine spanAt?_eq_none ?_
  simp only [List.mem_cons, List.not_mem_nil, or_false, not_or] at hc
  simp [OpensSpan, Syntax.python, Quote.delimiter, List.cons_prefix_cons, Ne.symm hc.1,
    Ne.symm hc.2.1, Ne.symm hc.2.2]

theorem spanAt?_python_comment {words rest : Text} (hwords : '\n' ∉ words)
    (hrest : rest = [] ∨ rest.head? = some '\n') (isBare : Bool) :
    spanAt? .python isBare ('#' :: words ++ rest) = some (('#' :: words).length, .erased) := by
  have hquotes : ∀ quote ∈ Syntax.python.quotes, quote.length? ('#' :: words ++ rest) = none := by
    intro quote hquote
    obtain ⟨c, hc, hkind⟩ := python_quote_cases hquote
    have hne : c ≠ '#' := by rcases hc with rfl | rfl <;> decide
    rcases hkind with rfl | rfl <;> exact quoteLength?_of_other hne rfl _
  have hmark : '\n' ∉ ['#'] := by decide
  have hlength : lineLength? ['#'] ('#' :: words ++ rest) = some ('#' :: words).length :=
    lineLength?_append hmark hwords hrest
  have hmarks : Syntax.python.lineMarks.findSome? (lineLength? · ('#' :: words ++ rest)) =
      some ('#' :: words).length := by
    rw [Syntax.python, List.findSome?_cons, hlength]
  rw [spanAt?_of_no_literal hquotes, hmarks]
  rfl

/-- One segment is scanned and leaves what it should, whatever follows. -/
theorem strip_python_segment {segment : Segment} {rest : Text} (h : segment.FitsPython rest)
    (fate : Fate) (isBare : Bool) :
    ∃ fate', strip .python 0 fate isBare (segment.text ++ rest) =
      segment.left isBare ++
        strip .python 0 fate' (bareAfter isBare (segment.left isBare)) rest := by
  cases segment with
  | code t =>
    simp only [Segment.text, Segment.left, Segment.uncommented]
    induction t generalizing fate isBare with
    | nil => exact ⟨fate, rfl⟩
    | cons c t ih =>
      obtain ⟨hc, ht⟩ := List.forall_mem_cons.mp h
      obtain ⟨fate', hstrip⟩ := ih .copied (bareAfter isBare [c]) ht
      refine ⟨fate', ?_⟩
      rw [List.cons_append, strip_of_none (spanAt?_python_code hc isBare _), hstrip]
      rfl
  | literal quote inside =>
    have hne : (Segment.literal quote inside).text ≠ [] := by
      obtain ⟨c, -, rfl | rfl⟩ := python_quote_cases h.1 <;> exact List.cons_ne_nil _ _
    refine ⟨if quote.isAcrossLines && isBare then .erased else .copied, ?_⟩
    rw [strip_of_span hne (spanAt?_python_literal h isBare), Segment.left]
    split
    · rw [flatMap_erased]
    · rw [flatMap_copied]
  | lineComment mark words =>
    obtain ⟨rfl, hwords, hrest⟩ := h
    refine ⟨.erased, ?_⟩
    simp only [Segment.text, Segment.left, Segment.uncommented, List.singleton_append]
    rw [strip_of_span (List.cons_ne_nil _ _) (spanAt?_python_comment hwords hrest isBare),
      flatMap_erased]
  | blockComment block words => exact h.elim

/-- The scanner stays in step with the segments of a text of Python. -/
theorem strip_python {segments : List Segment} (h : IsPython segments) (fate : Fate)
    (isBare : Bool) : strip .python 0 fate isBare (textOf segments) = leftOf isBare segments := by
  induction segments generalizing fate isBare with
  | nil => rfl
  | cons segment rest ih =>
    obtain ⟨fate', hstrip⟩ := strip_python_segment h.1 fate isBare
    have htext : textOf (segment :: rest) = segment.text ++ textOf rest := List.flatMap_cons
    rw [htext, hstrip, ih h.2, leftOf]

/-! ## Where a statement may begin -/

/-- What is seen of a segment from outside: code, and of a literal its delimiters and line feeds. -/
def Segment.outline : Segment → Text
  | code t => t
  | literal quote inside => quote.delimiter ++ inside.filter (· == '\n') ++ quote.delimiter
  | lineComment _ _ => []
  | blockComment _ words => words.filter (· == '\n')

/-- The number of brackets that are open behind a text. -/
def openBrackets (t : Text) : Nat :=
  t.countP (· ∈ ['(', '[', '{']) - t.countP (· ∈ [')', ']', '}'])

/-- The line behind the segments begins no statement: it stands inside brackets that were opened on
an earlier line, or the line above ends in a backslash. -/
def IsContinued (before : List Segment) : Prop :=
  ∃ above row, before.flatMap Segment.outline = above ++ '\n' :: row ∧ '\n' ∉ row ∧
    (above.getLast? = some '\\' ∨ ∀ u, u <+: row → 0 < openBrackets (above ++ '\n' :: u))

/-- A delimiter begins and ends with a character that is not blank. -/
theorem python_delimiter_cases {quote : Quote} (h : quote ∈ Syntax.python.quotes) :
    ∃ c d, isBlank c = false ∧ quote.delimiter = c :: d ∧ quote.delimiter = d ++ [c] := by
  obtain ⟨c, hc, hkind⟩ := python_quote_cases h
  have hsolid : isBlank c = false := by rcases hc with rfl | rfl <;> decide
  rcases hkind with rfl | rfl
  · exact ⟨c, [c, c], hsolid, rfl, rfl⟩
  · exact ⟨c, [], hsolid, rfl, rfl⟩

/-- A line on which a literal ends is not bare. -/
theorem bareAfter_append_delimiter {quote : Quote} (h : quote ∈ Syntax.python.quotes)
    (isBare : Bool) (t : Text) : bareAfter isBare (t ++ quote.delimiter) = false := by
  obtain ⟨c, d, hsolid, -, hdelimiter⟩ := python_delimiter_cases h
  rw [hdelimiter, ← List.append_assoc]
  exact bareAfter_concat_of_solid hsolid isBare _

/-- Line feeds leave a bare line bare. -/
theorem bareAfter_newlines (t : Text) : bareAfter true (t.filter (· == '\n')) = true := by
  induction t with
  | nil => rfl
  | cons c t ih =>
    by_cases hc : c = '\n'
    · simpa [hc, bareAfter] using ih
    · simpa [hc] using ih

/-- On a line on which only white space is seen, only white space is left. -/
theorem bareAfter_leftOf {before more : List Segment} (h : IsPython (before ++ more)) {isBare : Bool}
    (hbare : bareAfter isBare (before.flatMap Segment.outline) = true) :
    bareAfter isBare (leftOf isBare before) = true := by
  induction before generalizing isBare with
  | nil => exact hbare
  | cons segment rest ih =>
    obtain ⟨hfits, hrest⟩ := h
    rw [List.flatMap_cons, bareAfter_append] at hbare
    rw [leftOf, bareAfter_append]
    refine ih hrest (bareAfter_mono (fun hseen => ?_) hbare)
    cases segment with
    | code t => exact hseen
    | literal quote inside =>
      rw [Segment.outline, bareAfter_append_delimiter hfits.1] at hseen
      cases hseen
    | lineComment mark words =>
      obtain ⟨rfl, hwords, -⟩ := hfits
      have hleft : (Segment.lineComment ['#'] words).left isBare = [] :=
        List.filter_eq_nil_iff.mpr fun c hc heq => by
          obtain rfl | hc := List.mem_cons.mp hc
          · cases heq
          · exact hwords (eq_of_beq heq ▸ hc)
      rw [hleft]
      exact hseen
    | blockComment block words => exact hfits.elim

/-- **Triple-quoted literals are dropped on bare lines.**  Behind a first line `lead` that names an
interpreter, a text of Python leaves what its segments leave (`leftOf`).  A triple-quoted literal in
it leaves its line feeds if only white space is left before it on its line, which is so if it is the
first on the line; otherwise it is kept, up to white space at line ends, whether it begins a
statement or not. -/
theorem removeComments_tripleQuoted {lead inside : Text} {before after : List Segment}
    {quote : Quote} (hquote : quote.isAcrossLines = true)
    (h : IsPython (before ++ .literal quote inside :: after))
    (hlead : shebangLength .python (lead ++ textOf (before ++ .literal quote inside :: after)) =
      lead.length) :
    let text := lead ++ textOf (before ++ .literal quote inside :: after)
    let literal := quote.delimiter ++ inside ++ quote.delimiter
    let front := lead ++ leftOf (bareAfter true lead) before
    (allBlank (lastRow front) = true →
      Syntax.python.removeComments text =
        trimLineEnds (front ++ literal.filter (· == '\n') ++ leftOf true after)) ∧
    (allBlank (lastRow front) = false →
      Syntax.python.removeComments text = trimLineEnds (front ++ literal ++ leftOf false after) ∧
      trimLineEnds literal <:+: Syntax.python.removeComments text) ∧
    (allBlank (lastRow (lead ++ before.flatMap Segment.outline)) = true →
      allBlank (lastRow front) = true) := by
  intro text literal front
  have hfits : (Segment.literal quote inside).FitsPython (textOf after) := h.of_append.1
  -- The row is bare for the scanner when it is blank.
  have hrow : bareAfter (bareAfter true lead) (leftOf (bareAfter true lead) before) =
      allBlank (lastRow front) := by
    rw [← bareAfter_append, bareAfter_true]
  have hresult : Syntax.python.removeComments text =
      trimLineEnds (lead ++ leftOf (bareAfter true lead)
        (before ++ .literal quote inside :: after)) := by
    rw [removeComments_of_lead hlead, strip_python h]
  rw [leftOf_append, leftOf, hrow, ← List.append_assoc, ← List.append_assoc] at hresult
  refine ⟨fun hblank => ?_, fun hsolid => ?_, fun hseen => ?_⟩
  · have hleft : (Segment.literal quote inside).left (allBlank (lastRow front)) =
        literal.filter (· == '\n') := by
      simp [Segment.left, Segment.text, hquote, hblank, literal]
    rw [hresult, hleft, hblank, bareAfter_newlines]
  · have hleft : (Segment.literal quote inside).left (allBlank (lastRow front)) = literal := by
      simp [Segment.left, Segment.text, hsolid, literal]
    have hkept : Syntax.python.removeComments text =
        trimLineEnds (front ++ literal ++ leftOf false after) := by
      rw [hresult, hleft, bareAfter_append_delimiter hfits.1]
    refine ⟨hkept, ?_⟩
    obtain ⟨c, d, hsolid, hfirst, hlast⟩ := python_delimiter_cases hfits.1
    have hends : literal = c :: (d ++ inside ++ d) ++ [c] := by
      have hboth : literal = (c :: d) ++ inside ++ (d ++ [c]) :=
        congrArg₂ (· ++ inside ++ ·) hfirst hlast
      rw [hboth, List.cons_append, List.cons_append, ← List.append_assoc, List.cons_append]
    rw [hkept, hends]
    exact trimLineEnds_isInfix hsolid hsolid front _ _
  · rw [← hrow]
    refine bareAfter_leftOf h ?_
    rw [← bareAfter_append, bareAfter_true]
    exact hseen

/-- The quotation marks around docstrings. -/
def threeMarks : Quote := .acrossLines ['"', '"', '"']

/-- A docstring with quotation marks in it is dropped, an argument behind its bracket is kept. -/
theorem removeComments_tripleQuoted_call :
    let lead := "#!py".toList
    let inside := "\"f\"\n # here ".toList
    let head := [.code "\ndef f():\n  ".toList]
    let call := [.code "\n  g(x, ".toList, .literal threeMarks "a # b".toList, .code ")".toList,
      .lineComment ['#'] " c".toList]
    let segments := head ++ .literal threeMarks inside :: call
    IsPython segments ∧ shebangLength .python (lead ++ textOf segments) = lead.length ∧
      allBlank (lastRow (lead ++ head.flatMap Segment.outline)) = true ∧
      Syntax.python.removeComments (lead ++ textOf segments) =
        "#!py\ndef f():\n\n\n  g(x, \"\"\"a # b\"\"\")".toList := by
  intro lead inside head call segments
  have hdoc : Encloses threeMarks inside := encloses_of_tails rfl (by decide) (by decide)
  have hargument : Encloses threeMarks "a # b".toList :=
    encloses_of_tails rfl (by decide) (by decide)
  have htext : IsPython segments :=
    ⟨fitsPython_code (by decide) _, ⟨by decide, hdoc, by decide⟩, fitsPython_code (by decide) _,
      ⟨by decide, hargument, by decide⟩, fitsPython_code (by decide) _,
      ⟨rfl, by decide, .inl rfl⟩, trivial⟩
  have hlead : shebangLength .python (lead ++ textOf segments) = lead.length := by decide
  have hbare : allBlank (lastRow (lead ++ head.flatMap Segment.outline)) = true := by decide
  obtain ⟨hdropped, -, hfirst⟩ := removeComments_tripleQuoted rfl htext hlead
  refine ⟨htext, hlead, hbare, ?_⟩
  rw [hdropped (hfirst hbare)]
  decide

/-- An argument on a line of its own is dropped from its call. -/
theorem removeComments_drops_argument :
    ¬ ∀ before quote inside after, quote.isAcrossLines = true →
      IsPython (before ++ .literal quote inside :: after) → IsContinued before →
      trimLineEnds (quote.delimiter ++ inside ++ quote.delimiter) <:+:
        Syntax.python.removeComments (textOf (before ++ .literal quote inside :: after)) := by
  intro hkeeps
  let before : List Segment := [.code "f(\n  ".toList]
  let after : List Segment := [.code "\n)\n".toList]
  have hinside : Encloses threeMarks ['a'] := encloses_of_tails rfl (by decide) (by decide)
  have htext : IsPython (before ++ .literal threeMarks ['a'] :: after) :=
    ⟨fitsPython_code (by decide) _, ⟨by decide, hinside, by decide⟩,
      fitsPython_code (by decide) _, trivial⟩
  have hcontinued : IsContinued before := by
    refine ⟨"f(".toList, "  ".toList, rfl, by decide, .inr fun u hu => ?_⟩
    have hparts : ∀ u ∈ "  ".toList.inits, 0 < openBrackets ("f(".toList ++ '\n' :: u) := by decide
    exact hparts u ((List.mem_inits u _).mpr hu)
  have hresult : Syntax.python.removeComments
      (textOf (before ++ .literal threeMarks ['a'] :: after)) = "f(\n\n)".toList := by decide
  have hinfix := hkeeps before threeMarks ['a'] after rfl htext hcontinued
  rw [hresult] at hinfix
  exact absurd hinfix (by decide)

end Comments

end SourceBundle
