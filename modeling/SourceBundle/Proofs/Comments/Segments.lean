import SourceBundle.Proofs.Comments.Scanning

/-!
# Texts made of segments

A text that is put together from code, closed literals and comments loses its comments and nothing
else.  `Segment` says what the pieces are and `Fit` when they may follow each other: code opens
nothing, a literal is closed, a comment ends where its kind ends.

The argument works for every syntax whose quotes and marks can be told apart (`Syntax.Apart`) and
every text without character literals, which seven of the syntaxes do not have (`Syntax.Clear`).  One
segment is scanned as one span (`strip_segment`), so the scanner stays in step with the segments
(`strip_textOf`, `strip_segments`).
-/

namespace SourceBundle.Comments

/-! ## Segments -/

/-- What may stand between the delimiters of a literal. -/
inductive Inside (quote : Quote) : Text → Prop
  | empty : Inside quote []
  | escape (c : Char) {t : Text} : Inside quote t → Inside quote ('\\' :: c :: t)
  | plain {c : Char} {t : Text} : c ≠ '\\' → quote.delimiter.head? ≠ some c →
      (c = '\n' → quote.isAcrossLines = true) → Inside quote t → Inside quote (c :: t)

/-- A piece of a text. -/
inductive Segment where
  | code (t : Text)
  /-- A literal: what stands between two of its delimiters. -/
  | literal (quote : Quote) (inside : Text)
  /-- A comment up to the end of its line: its mark and what follows it. -/
  | lineComment (mark words : Text)
  /-- A block comment: its marks and what follows the opening one. -/
  | blockComment (block : Text × Text) (words : Text)

namespace Segment

/-- The text of a segment. -/
def text : Segment → Text
  | code t => t
  | literal quote inside => quote.delimiter ++ inside ++ quote.delimiter
  | lineComment mark words => mark ++ words
  | blockComment block words => block.1 ++ words

/-- What is left of a segment when comments are removed: of a comment its line feeds. -/
def uncommented : Segment → Text
  | code t => t
  | literal quote inside => quote.delimiter ++ inside ++ quote.delimiter
  | lineComment mark words => (mark ++ words).filter (· == '\n')
  | blockComment block words => (block.1 ++ words).filter (· == '\n')

/-- The segment may stand in front of `rest`.  No position inside code opens anything; a comment to
the end of the line is none that the syntax reads as a block comment; a block comment ends where its
closing mark is first found. -/
def Fits (s : Syntax) (rest : Text) : Segment → Prop
  | code t => ∀ v, v ≠ [] → v <:+ t → ¬ OpensSpan s (v ++ rest)
  | literal quote inside => quote ∈ s.quotes ∧ Inside quote inside
  | lineComment mark words => mark ∈ s.lineMarks ∧ '\n' ∉ words ∧
      (∀ block ∈ s.blocks, ¬ block.1 <+: mark ++ words) ∧ (rest = [] ∨ rest.head? = some '\n')
  | blockComment block words => block ∈ s.blocks ∧ block.2 <:+ words ∧
      ∀ u v, words = u ++ block.2 ++ v → v = []

end Segment

theorem fits_code {s : Syntax} {t rest : Text}
    (h : ∀ v ∈ t.tails, v ≠ [] → ¬ OpensSpan s (v ++ rest)) : (Segment.code t).Fits s rest :=
  fun v hv hsuffix => h v ((List.mem_tails v t).2 hsuffix) hv

/-- A block comment is cut at its closing mark with nothing left. -/
theorem fits_blockComment {s : Syntax} {block : Text × Text} {comment words : Text}
    (hblock : block ∈ s.blocks) (hcut : Text.cutAt? block.2 words = some (comment, []))
    (rest : Text) : (Segment.blockComment block words).Fits s rest := by
  obtain ⟨hwords, hfirst⟩ := Text.cutAt?_eq_some_iff.mp hcut
  rw [List.append_nil] at hwords
  refine ⟨hblock, ⟨comment, hwords.symm⟩, fun u v h => ?_⟩
  have hle := hfirst u v h
  have hlength := congrArg List.length (hwords.symm.trans h)
  simp only [List.length_append] at hlength
  exact List.eq_nil_of_length_eq_zero (by omega)

/-- The text put together from segments. -/
def textOf (segments : List Segment) : Text := segments.flatMap Segment.text

/-- Each segment may stand in front of those that follow it. -/
def Fit (s : Syntax) : List Segment → Prop
  | [] => True
  | segment :: rest => segment.Fits s (textOf rest) ∧ Fit s rest

/-- Each segment may stand in front of those that follow it and of the text behind them. -/
def FitBefore (s : Syntax) (behind : Text) : List Segment → Prop
  | [] => True
  | segment :: rest => segment.Fits s (textOf rest ++ behind) ∧ FitBefore s behind rest

theorem Fit.fitBefore {s : Syntax} {segments : List Segment} (h : Fit s segments) :
    FitBefore s [] segments := by
  induction segments with
  | nil => trivial
  | cons segment rest ih => exact ⟨(List.append_nil (textOf rest)).symm ▸ h.1, ih h.2⟩

theorem exists_fits_of_mem {s : Syntax} {segments : List Segment} {segment : Segment}
    (h : Fit s segments) (hmem : segment ∈ segments) : ∃ rest, segment.Fits s rest := by
  induction segments with
  | nil => cases hmem
  | cons first rest ih =>
    rcases List.mem_cons.1 hmem with rfl | hrest
    · exact ⟨textOf rest, h.1⟩
    · exact ih h.2 hrest

/-! ## Syntaxes whose marks can be told apart -/

/-- The quotes and marks of a syntax are told apart by their first characters, and literals are kept
wherever they stand. -/
structure Syntax.Apart (s : Syntax) : Prop where
  keepsTexts : s.dropsStatementTexts = false
  quotes : ∀ quote ∈ s.quotes, quote.delimiter ≠ [] ∧
    quote.delimiter.head? ≠ some '\\' ∧ quote.delimiter.head? ≠ some '\n'
  quotesApart : ∀ quote ∈ s.quotes, ∀ other ∈ s.quotes,
    quote.delimiter.head? = other.delimiter.head? → quote = other
  marks : ∀ mark ∈ s.lineMarks ++ s.blocks.map Prod.fst, mark ≠ [] ∧ '\n' ∉ mark ∧
    ∀ quote ∈ s.quotes, quote.delimiter.head? ≠ mark.head?
  oneBlock : ∀ block ∈ s.blocks, ∀ other ∈ s.blocks, block = other

/-- In addition every quote encloses literals of any length. -/
structure Syntax.Clear (s : Syntax) : Prop extends s.Apart where
  noCharacters : ∀ quote ∈ s.quotes, quote ≠ .character

/-- The syntaxes in which every quote opens a literal of its own kind. -/
def clearSyntaxes : List Syntax :=
  [.cStyle, .css, .hash, .markup, .sql, .lua, .haskell]

theorem clear_of_mem {s : Syntax} (hs : s ∈ clearSyntaxes) : s.Clear := by
  have h : s.dropsStatementTexts = false ∧
      (∀ quote ∈ s.quotes, quote.delimiter ≠ [] ∧
        quote.delimiter.head? ≠ some '\\' ∧ quote.delimiter.head? ≠ some '\n') ∧
      (∀ quote ∈ s.quotes, ∀ other ∈ s.quotes,
        quote.delimiter.head? = other.delimiter.head? → quote = other) ∧
      (∀ mark ∈ s.lineMarks ++ s.blocks.map Prod.fst, mark ≠ [] ∧ '\n' ∉ mark ∧
        ∀ quote ∈ s.quotes, quote.delimiter.head? ≠ mark.head?) ∧
      (∀ block ∈ s.blocks, ∀ other ∈ s.blocks, block = other) ∧
      ∀ quote ∈ s.quotes, quote ≠ .character := by
    revert s
    decide
  obtain ⟨hkeeps, hquotes, hapart, hmarks, hblock, hcharacters⟩ := h
  exact ⟨⟨hkeeps, hquotes, hapart, hmarks, hblock⟩, hcharacters⟩

theorem rust_apart : Syntax.rust.Apart :=
  ⟨rfl, by decide, by decide, by decide, by decide⟩

/-! ## Literals -/

/-- Where the first character of the delimiter stands behind backslashes only, the delimiter does not
begin. -/
theorem Inside.encloses {quote : Quote} (hquote : quote.delimiter ≠ []) {t : Text}
    (h : Inside quote t) : Encloses quote t := by
  induction h with
  | empty => exact .nil
  | escape c _ ih => exact .escape c ih
  | plain hescape hfirst hline _ ih =>
    refine .plain hescape hline (fun hpre => hfirst ?_) ih
    obtain ⟨d, u, hdelimiter⟩ := List.exists_cons_of_ne_nil hquote
    rw [hdelimiter, List.cons_prefix_cons] at hpre
    rw [hdelimiter, List.head?_cons, hpre.1]

/-- A closed literal is recognised as a whole. -/
theorem quoteLength?_literal {s : Syntax} (hs : s.Apart) {quote : Quote} (hquote : quote ∈ s.quotes)
    (hcharacter : quote ≠ .character) {inside : Text} (h : Inside quote inside) (rest : Text) :
    quote.length? (quote.delimiter ++ inside ++ quote.delimiter ++ rest) =
      some (quote.delimiter ++ inside ++ quote.delimiter).length := by
  obtain ⟨hne, hescape, hline⟩ := hs.quotes quote hquote
  obtain ⟨c, d, hdelimiter⟩ := List.exists_cons_of_ne_nil hne
  rw [hdelimiter, List.head?_cons, Ne, Option.some.injEq] at hescape hline
  exact quoteLength?_encloses hcharacter (h.encloses hne) hdelimiter hescape hline rest

/-- A text does not begin with a delimiter whose first character is another. -/
theorem quoteLength?_of_head?_ne {quote : Quote} {lead : Text} (hquote : quote.delimiter ≠ [])
    (hlead : lead ≠ []) (h : quote.delimiter.head? ≠ lead.head?) (rest : Text) :
    quote.length? (lead ++ rest) = none := by
  refine quoteLength?_eq_none ?_
  obtain ⟨c, d, hdelimiter⟩ := List.exists_cons_of_ne_nil hquote
  obtain ⟨e, u, rfl⟩ := List.exists_cons_of_ne_nil hlead
  rw [hdelimiter, List.cons_append, List.cons_prefix_cons]
  rintro ⟨rfl, -⟩
  exact h (by rw [hdelimiter]; rfl)

/-! ## Scanning segments -/

/-- In front of the mark of a comment no literal begins. -/
theorem quoteLength?_mark {s : Syntax} (hs : s.Apart) {mark : Text}
    (hmark : mark ∈ s.lineMarks ++ s.blocks.map Prod.fst) (rest : Text) :
    ∀ quote ∈ s.quotes, quote.length? (mark ++ rest) = none := by
  intro quote hquote
  obtain ⟨hne, -, hapart⟩ := hs.marks mark hmark
  exact quoteLength?_of_head?_ne (hs.quotes quote hquote).1 hne (hapart quote hquote) rest

theorem spanAt?_literal {s : Syntax} (hs : s.Apart) (isBare : Bool) {quote : Quote}
    (hquote : quote ∈ s.quotes) (hcharacter : quote ≠ .character) {inside : Text}
    (h : Inside quote inside) (rest : Text) :
    spanAt? s isBare (quote.delimiter ++ inside ++ quote.delimiter ++ rest) =
      some ((quote.delimiter ++ inside ++ quote.delimiter).length, .copied) := by
  refine spanAt?_of_literal hs.keepsTexts hquote
    (quoteLength?_literal hs hquote hcharacter h rest) ?_
  intro other hother hne
  have hapart : other.delimiter.head? ≠ quote.delimiter.head? := fun heq =>
    hne (hs.quotesApart other hother quote hquote heq)
  rw [List.append_assoc, List.append_assoc]
  exact quoteLength?_of_head?_ne (hs.quotes other hother).1 (hs.quotes quote hquote).1 hapart _

theorem spanAt?_blockComment {s : Syntax} (hs : s.Apart) (isBare : Bool) {block : Text × Text}
    (hblock : block ∈ s.blocks) {words : Text} (hclosed : block.2 <:+ words)
    (hfirst : ∀ u v, words = u ++ block.2 ++ v → v = []) (rest : Text) :
    spanAt? s isBare (block.1 ++ words ++ rest) = some ((block.1 ++ words).length, .erased) := by
  have hmark : block.1 ∈ s.lineMarks ++ s.blocks.map Prod.fst :=
    List.mem_append_right _ (List.mem_map_of_mem hblock)
  have hquotes : ∀ quote ∈ s.quotes, quote.length? (block.1 ++ words ++ rest) = none := by
    rw [List.append_assoc]
    exact quoteLength?_mark hs hmark (words ++ rest)
  have hlength := blockLength?_closed hclosed hfirst rest
  have hfound : s.blocks.findSome? (blockLength? · (block.1 ++ words ++ rest)) =
      some (block.1 ++ words).length :=
    findSome?_of_mem hblock hlength fun other hother =>
      .inr (hs.oneBlock other hother block hblock ▸ hlength)
  rw [spanAt?_of_no_literal hquotes, hfound]
  rfl

/-- A mark without line feeds does not reach beyond the line feed behind a text. -/
theorem isPrefix_of_isPrefix_append {mark t rest : Text} (hmark : '\n' ∉ mark)
    (hrest : rest = [] ∨ rest.head? = some '\n') (h : mark <+: t ++ rest) : mark <+: t := by
  rcases Nat.lt_or_ge t.length mark.length with hlong | hshort
  · exfalso
    have hget : (t ++ rest)[t.length]? = mark[t.length]? := by
      obtain ⟨v, hv⟩ := h
      rw [← hv, List.getElem?_append_left hlong]
    rw [List.getElem?_append_right (by omega), Nat.sub_self, ← List.head?_eq_getElem?] at hget
    rcases hrest with rfl | hhead
    · rw [List.getElem?_eq_getElem hlong] at hget
      simp at hget
    · rw [hhead] at hget
      exact hmark (List.mem_of_getElem? hget.symm)
  · exact List.prefix_of_prefix_length_le h ⟨rest, rfl⟩ hshort

theorem spanAt?_lineComment {s : Syntax} (hs : s.Apart) (isBare : Bool) {mark words rest : Text}
    (hmark : mark ∈ s.lineMarks) (hwords : '\n' ∉ words)
    (hblocks : ∀ block ∈ s.blocks, ¬ block.1 <+: mark ++ words)
    (hrest : rest = [] ∨ rest.head? = some '\n') :
    spanAt? s isBare (mark ++ words ++ rest) = some ((mark ++ words).length, .erased) := by
  have hmem : mark ∈ s.lineMarks ++ s.blocks.map Prod.fst := List.mem_append_left _ hmark
  have hquotes : ∀ quote ∈ s.quotes, quote.length? (mark ++ words ++ rest) = none := by
    rw [List.append_assoc]
    exact quoteLength?_mark hs hmem (words ++ rest)
  have hnoblock : s.blocks.findSome? (blockLength? · (mark ++ words ++ rest)) = none := by
    refine List.findSome?_eq_none_iff.2 fun block hb => blockLength?_eq_none fun hpre => ?_
    have hopener : '\n' ∉ block.1 :=
      (hs.marks block.1 (List.mem_append_right _ (List.mem_map_of_mem hb))).2.1
    exact hblocks block hb (isPrefix_of_isPrefix_append hopener hrest hpre)
  have hlength := lineLength?_append (hs.marks mark hmem).2.1 hwords hrest
  have hfound : s.lineMarks.findSome? (lineLength? · (mark ++ words ++ rest)) =
      some (mark ++ words).length := by
    refine findSome?_of_mem hmark hlength fun other _ => ?_
    -- Whichever mark is found first, the comment ends with the line.
    have hstarts : Text.startsWith mark (mark ++ words ++ rest) = true :=
      Text.startsWith_iff.2 ⟨words ++ rest, by simp⟩
    rw [lineLength?, if_pos hstarts] at hlength
    rw [lineLength?, hlength]
    split
    · exact .inr rfl
    · exact .inl rfl
  rw [spanAt?_of_no_literal hquotes, hnoblock, hfound]
  rfl

/-- One segment is scanned and leaves what it should, whatever follows. -/
theorem strip_segment {s : Syntax} (hs : s.Apart) {segment : Segment} {rest : Text}
    (h : segment.Fits s rest) (hcharacter : ∀ inside, segment ≠ .literal .character inside)
    (fate : Fate) (isBare : Bool) :
    ∃ fate' isBare', strip s 0 fate isBare (segment.text ++ rest) =
      segment.uncommented ++ strip s 0 fate' isBare' rest := by
  cases segment with
  | code t =>
    simp only [Segment.text, Segment.uncommented]
    induction t generalizing fate isBare with
    | nil => exact ⟨fate, isBare, rfl⟩
    | cons c t ih =>
      have hnone : spanAt? s isBare (c :: (t ++ rest)) = none :=
        spanAt?_eq_none (h (c :: t) (by simp) (List.suffix_refl _))
      have htail : (Segment.code t).Fits s rest := fun v hv hsuffix =>
        h v hv (hsuffix.trans (List.suffix_cons c t))
      obtain ⟨fate', isBare', hstrip⟩ := ih .copied (bareAfter isBare [c]) htail (by simp)
      refine ⟨fate', isBare', ?_⟩
      rw [List.cons_append, strip_of_none hnone, hstrip, List.cons_append]
  | literal quote inside =>
    obtain ⟨hquote, hinside⟩ := h
    have hne : quote.delimiter ++ inside ++ quote.delimiter ≠ [] := by
      simp [(hs.quotes quote hquote).1]
    have hspan := spanAt?_literal hs isBare hquote
      (fun heq => hcharacter inside (heq ▸ rfl)) hinside rest
    simp only [Segment.text, Segment.uncommented]
    rw [strip_of_span hne hspan, flatMap_copied]
    exact ⟨_, _, rfl⟩
  | lineComment mark words =>
    obtain ⟨hmark, hwords, hblocks, hrest⟩ := h
    have hne : mark ++ words ≠ [] := by
      simp [(hs.marks mark (List.mem_append_left _ hmark)).1]
    have hspan := spanAt?_lineComment hs isBare hmark hwords hblocks hrest
    simp only [Segment.text, Segment.uncommented]
    rw [strip_of_span hne hspan, flatMap_erased]
    exact ⟨_, _, rfl⟩
  | blockComment block words =>
    obtain ⟨hblock, hclosed, hfirst⟩ := h
    have hmark : block.1 ∈ s.lineMarks ++ s.blocks.map Prod.fst :=
      List.mem_append_right _ (List.mem_map_of_mem hblock)
    have hne : block.1 ++ words ≠ [] := by
      simp [(hs.marks block.1 hmark).1]
    have hspan := spanAt?_blockComment hs isBare hblock hclosed hfirst rest
    simp only [Segment.text, Segment.uncommented]
    rw [strip_of_span hne hspan, flatMap_erased]
    exact ⟨_, _, rfl⟩

/-- The scanner stays in step with segments that are no character literals, and goes on with what is
behind them. -/
theorem strip_textOf_append {s : Syntax} (hs : s.Apart) {behind : Text} {segments : List Segment}
    (h : FitBefore s behind segments)
    (hcharacters : ∀ inside, .literal .character inside ∉ segments) (fate : Fate)
    (isBare : Bool) :
    strip s 0 fate isBare (textOf segments ++ behind) =
      segments.flatMap Segment.uncommented ++ strip s 0 .copied true behind := by
  induction segments generalizing fate isBare with
  | nil => exact strip_of_keepsTexts hs.keepsTexts fate isBare behind
  | cons segment rest ih =>
    obtain ⟨hfits, hrest⟩ := h
    have hfirst : ∀ inside, segment ≠ .literal .character inside := fun inside heq =>
      hcharacters inside (heq ▸ List.mem_cons_self)
    have hothers : ∀ inside, .literal .character inside ∉ rest := fun inside hmem =>
      hcharacters inside (List.mem_cons_of_mem segment hmem)
    obtain ⟨fate', isBare', hstrip⟩ := strip_segment hs hfits hfirst fate isBare
    have htext : textOf (segment :: rest) = segment.text ++ textOf rest := List.flatMap_cons
    rw [htext, List.append_assoc, hstrip, ih hrest hothers, List.flatMap_cons, List.append_assoc]

/-- The scanner stays in step with segments that are no character literals. -/
theorem strip_textOf {s : Syntax} (hs : s.Apart) {segments : List Segment} (h : Fit s segments)
    (hcharacters : ∀ inside, .literal .character inside ∉ segments) (fate : Fate)
    (isBare : Bool) :
    strip s 0 fate isBare (textOf segments) = segments.flatMap Segment.uncommented := by
  have hstrip := strip_textOf_append hs h.fitBefore hcharacters fate isBare
  rwa [List.append_nil, strip, List.append_nil] at hstrip

/-- The scanner stays in step with the segments of a text in a clear syntax. -/
theorem strip_segments {s : Syntax} (hs : s.Clear) {segments : List Segment} (h : Fit s segments)
    (fate : Fate) (isBare : Bool) :
    strip s 0 fate isBare (textOf segments) = segments.flatMap Segment.uncommented := by
  refine strip_textOf hs.toApart h (fun inside hmem => ?_) fate isBare
  obtain ⟨rest, hquote, -⟩ := exists_fits_of_mem h hmem
  exact hs.noCharacters .character hquote rfl

/-- **Comments are removed by the grammar of their syntax.**  Of a text made of fitting segments,
code and literals are kept and comments leave their line feeds, before line ends are trimmed. -/
theorem removeComments_textOf {s : Syntax} (hs : s ∈ clearSyntaxes) {segments : List Segment}
    (h : Fit s segments)
    (hshebang : s.keepsShebang = true → ¬ ['#', '!'] <+: textOf segments) :
    s.removeComments (textOf segments) =
      Text.trimLineEnds (segments.flatMap Segment.uncommented) := by
  have hlength : shebangLength s (textOf segments) = 0 := by
    rw [shebangLength, if_neg]
    rw [Bool.and_eq_true, Text.startsWith_iff]
    exact fun hboth => hshebang hboth.1 hboth.2
  rw [Syntax.removeComments, hlength, strip_segments (clear_of_mem hs) h]

/-- Lua, where a mark of one kind begins with that of another and a literal holds both. -/
theorem removeComments_textOf_lua :
    let segments : List Segment :=
      [.blockComment ("--[[".toList, "]]".toList) " a\n]b ]]".toList, .code "x=".toList,
        .literal (.inLine ['"']) "--[[\\\"".toList, .lineComment "--".toList " [[c".toList,
        .code "\n".toList]
    Fit .lua segments ∧ ¬ ['#', '!'] <+: textOf segments ∧
      Syntax.lua.removeComments (textOf segments) = "\nx=\"--[[\\\"\"".toList := by
  intro segments
  have hcut : Text.cutAt? "]]".toList " a\n]b ]]".toList = some (" a\n]b ".toList, []) := rfl
  have hfirst : ∀ u v, " a\n]b ]]".toList = u ++ "]]".toList ++ v → v = [] := by
    intro u v h
    have hle := (Text.cutAt?_eq_some_iff.1 hcut).2 u v h
    have hlength := congrArg List.length h
    simp at hle hlength
    exact List.eq_nil_of_length_eq_zero (by omega)
  have hcode : (Segment.code "x=".toList).Fits .lua (textOf (segments.drop 2)) :=
    fits_code (by decide)
  have hend : (Segment.code "\n".toList).Fits .lua [] := fits_code (by decide)
  have hinside : Inside (.inLine ['"']) "--[[\\\"".toList :=
    .plain (by decide) (by decide) (by decide) <| .plain (by decide) (by decide) (by decide) <|
      .plain (by decide) (by decide) (by decide) <| .plain (by decide) (by decide) (by decide) <|
        .escape '"' .empty
  have hfit : Fit .lua segments :=
    ⟨⟨by decide, by decide, hfirst⟩, hcode, ⟨by decide, hinside⟩,
      ⟨by decide, by decide, by decide, .inr rfl⟩, hend, trivial⟩
  refine ⟨hfit, by decide, ?_⟩
  exact removeComments_textOf (by decide) hfit fun _ => by decide

end SourceBundle.Comments
