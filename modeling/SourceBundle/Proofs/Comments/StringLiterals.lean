import SourceBundle.Proofs.Comments.Segments
import SourceBundle.Proofs.Text.LineEnds

/-!
# String literals of Rust

In Rust a string may go over several lines.  The syntax by which comments are removed says that it
ends on its line, so a string with a bare line feed is no literal to the scanner, and what stands on
its further lines is read as code (`removeComments_loses_string`).

Where line feeds stand inside strings only behind backslashes, a text of Rust fits the scanner's
syntax with the same segments (`fit_rust`), and every string is kept
(`exists_kept_removeComments`).  A first line that begins like the name of an interpreter, as inner
attributes do, is kept whatever is in it, so the scanner begins behind it; it is in step with the
segments if that line ends in code (`exists_kept_strip`).
-/

namespace SourceBundle.Comments

open Text

/-! ## Texts of Rust -/

/-- Rust as its grammar has it: a string goes on to its closing quote, over any number of lines. -/
def rustGrammar : Syntax :=
  { Syntax.rust with quotes := [.acrossLines ['"'], .character] }

/-- A string: what stands between its double quotes. -/
def Segment.string (inside : Text) : Segment := .literal (.acrossLines ['"']) inside

/-- A text of code without quotes and marks, strings and comments, by the grammar of Rust. -/
structure IsStringText (segments : List Segment) : Prop where
  fit : Fit rustGrammar segments
  strings : ∀ quote inside, .literal quote inside ∈ segments → quote = .acrossLines ['"']

/-- The first line feed of the text stands in code. -/
def EndsFirstLineInCode (segments : List Segment) : Prop :=
  ∀ segment, segments.find? (fun segment => segment.text.contains '\n') = some segment →
    ∃ t, segment = .code t

/-- What may be left of a segment: all of it, or of a comment its line feeds. -/
def Segment.Leaves (segment : Segment) (piece : Text) : Prop :=
  piece = segment.text ∨ piece = segment.uncommented

/-! ## Strings without bare line feeds -/

/-- What may stand in a literal on one line may stand in one over several lines. -/
theorem Inside.acrossLines {delimiter t : Text} (h : Inside (.inLine delimiter) t) :
    Inside (.acrossLines delimiter) t := by
  induction h with
  | empty => exact .empty
  | escape c _ ih => exact .escape c ih
  | plain hescape hfirst _ _ ih => exact .plain hescape hfirst (fun _ => rfl) ih

/-- The segment with its literal on one line. -/
def Segment.onLine : Segment → Segment
  | .literal quote inside => .literal (.inLine quote.delimiter) inside
  | segment => segment

@[simp] theorem Segment.text_onLine (segment : Segment) : segment.onLine.text = segment.text := by
  cases segment <;> rfl

@[simp] theorem Segment.uncommented_onLine (segment : Segment) :
    segment.onLine.uncommented = segment.uncommented := by
  cases segment <;> rfl

theorem textOf_map_onLine (segments : List Segment) :
    textOf (segments.map Segment.onLine) = textOf segments := by
  simp [textOf, List.flatMap_map]

/-- Both syntaxes have the same marks and delimiters. -/
theorem opensSpan_rust_iff (t : Text) : OpensSpan .rust t ↔ OpensSpan rustGrammar t := by
  simp [OpensSpan, rustGrammar, Syntax.rust, Quote.delimiter]

theorem Segment.Fits.rust {segment : Segment} {rest : Text} (h : segment.Fits rustGrammar rest)
    (hstring : ∀ quote inside, segment = .literal quote inside → quote = .acrossLines ['"'])
    (hline : ∀ inside, segment = .string inside → Inside (.inLine ['"']) inside) :
    segment.onLine.Fits .rust rest := by
  cases segment with
  | code t =>
    intro v hv hsuffix
    rw [opensSpan_rust_iff]
    exact h v hv hsuffix
  | literal quote inside =>
    obtain rfl := hstring quote inside rfl
    exact ⟨List.mem_cons_self, hline inside rfl⟩
  | lineComment mark words => exact h
  | blockComment block words => exact h

/-- Without bare line feeds in strings the scanner's syntax divides the text as the grammar does. -/
theorem fit_rust {segments : List Segment} (h : IsStringText segments)
    (hlines : ∀ inside, .string inside ∈ segments → Inside (.inLine ['"']) inside) :
    Fit .rust (segments.map Segment.onLine) := by
  obtain ⟨hfit, hstrings⟩ := h
  induction segments with
  | nil => trivial
  | cons segment rest ih =>
    refine ⟨?_, ih (fun inside hmem => hlines inside (List.mem_cons_of_mem _ hmem)) hfit.2
      fun quote inside hmem => hstrings quote inside (List.mem_cons_of_mem _ hmem)⟩
    rw [textOf_map_onLine]
    exact hfit.1.rust (fun quote inside heq => hstrings quote inside (heq ▸ List.mem_cons_self))
      fun inside heq => hlines inside (heq ▸ List.mem_cons_self)

/-! ## Behind the first line -/

theorem forall₂_leaves_uncommented (segments : List Segment) :
    List.Forall₂ Segment.Leaves segments (segments.map Segment.uncommented) := by
  rw [List.forall₂_map_right_iff, List.forall₂_same]
  exact fun segment _ => .inr rfl

/-- Code behind a line feed in it fits as well. -/
theorem Segment.Fits.code_suffix {s : Syntax} {u v rest : Text}
    (h : (Segment.code (u ++ v)).Fits s rest) : (Segment.code v).Fits s rest :=
  fun w hw hsuffix => h w hw (hsuffix.trans (List.suffix_append u v))

/-- Behind a first line that ends in code the scanner is in step with the segments. -/
theorem exists_kept_strip {s : Syntax} (hs : s.Apart) {segments : List Segment} (h : Fit s segments)
    (hcharacters : ∀ inside, .literal .character inside ∉ segments)
    (hfirst : EndsFirstLineInCode segments) (isBare : Bool) :
    ∃ kept, List.Forall₂ Segment.Leaves segments kept ∧
      strip s ((textOf segments).takeWhile (· != '\n')).length .copied isBare (textOf segments) =
        kept.flatten := by
  induction segments generalizing isBare with
  | nil => exact ⟨[], .nil, rfl⟩
  | cons segment rest ih =>
    have hothers : ∀ inside, .literal .character inside ∉ rest := fun inside hmem =>
      hcharacters inside (List.mem_cons_of_mem segment hmem)
    have htext : textOf (segment :: rest) = segment.text ++ textOf rest := List.flatMap_cons
    by_cases hline : '\n' ∈ segment.text
    · -- The first line ends in this segment, and what is behind it is code as well.
      obtain ⟨t, rfl⟩ := hfirst segment (List.find?_cons_of_pos (by simpa using hline))
      obtain ⟨u, v, rfl, hu⟩ := List.eq_append_cons_of_mem hline
      have hfit : Fit s (.code ('\n' :: v) :: rest) := ⟨h.1.code_suffix, h.2⟩
      have hsplit : textOf (.code (u ++ '\n' :: v) :: rest) =
          u ++ textOf (.code ('\n' :: v) :: rest) := by
        rw [htext]
        exact List.append_assoc u ('\n' :: v) (textOf rest)
      have hlead : (textOf (.code (u ++ '\n' :: v) :: rest)).takeWhile (· != '\n') = u := by
        rw [hsplit, List.takeWhile_append_of_pos (ne_newline_of_not_mem hu)]
        exact List.append_nil u
      refine ⟨(u ++ '\n' :: v) :: rest.map Segment.uncommented,
        .cons (.inl rfl) (forall₂_leaves_uncommented rest), ?_⟩
      rw [hlead, hsplit, strip_pending, flatMap_copied,
        strip_textOf hs hfit (by simpa using hothers), List.flatMap_cons, List.flatten_cons,
        List.flatMap_def, List.append_assoc]
      rfl
    · -- The whole segment belongs to the first line.
      have hlater : EndsFirstLineInCode rest := fun later hfound =>
        hfirst later (by rw [List.find?_cons_of_neg (by simpa using hline), hfound])
      obtain ⟨kept, hleaves, hstrip⟩ := ih h.2 hothers hlater (bareAfter isBare segment.text)
      refine ⟨segment.text :: kept, .cons (.inl rfl) hleaves, ?_⟩
      rw [htext, List.takeWhile_append_of_pos (ne_newline_of_not_mem hline), List.length_append,
        strip_pending_add, flatMap_copied, hstrip, List.flatten_cons]

/-! ## Strings are kept -/

theorem Segment.leaves_onLine {segment : Segment} {piece : Text} :
    segment.onLine.Leaves piece ↔ segment.Leaves piece := by
  simp [Segment.Leaves]

theorem endsFirstLineInCode_map_onLine {segments : List Segment} (h : EndsFirstLineInCode segments) :
    EndsFirstLineInCode (segments.map Segment.onLine) := by
  intro segment hfound
  rw [List.find?_map, Option.map_eq_some_iff] at hfound
  obtain ⟨first, hfirst, rfl⟩ := hfound
  obtain ⟨t, rfl⟩ := h first (by simpa [Function.comp_def] using hfirst)
  exact ⟨t, rfl⟩

/-- Of a text of Rust in which line feeds stand inside strings only behind backslashes, comments are
removed piece by piece. -/
theorem exists_kept_removeComments {segments : List Segment} (h : IsStringText segments)
    (hlines : ∀ inside, .string inside ∈ segments → Inside (.inLine ['"']) inside)
    (hfirst : ['#', '!'] <+: textOf segments → EndsFirstLineInCode segments) :
    ∃ kept, List.Forall₂ Segment.Leaves segments kept ∧
      Syntax.rust.removeComments (textOf segments) = trimLineEnds kept.flatten := by
  have hfit := fit_rust h hlines
  have hcharacters : ∀ inside, .literal .character inside ∉ segments.map Segment.onLine := by
    intro inside hmem
    obtain ⟨segment, -, hsegment⟩ := List.mem_map.1 hmem
    cases segment <;> cases hsegment
  rw [Syntax.removeComments, ← textOf_map_onLine]
  by_cases hshebang : ['#', '!'] <+: textOf (segments.map Segment.onLine)
  · have hlength : shebangLength .rust (textOf (segments.map Segment.onLine)) =
        ((textOf (segments.map Segment.onLine)).takeWhile (· != '\n')).length := by
      rw [shebangLength, if_pos]
      rw [Bool.and_eq_true, Text.startsWith_iff]
      exact ⟨rfl, hshebang⟩
    rw [textOf_map_onLine] at hshebang
    obtain ⟨kept, hleaves, hstrip⟩ := exists_kept_strip rust_apart hfit hcharacters
      (endsFirstLineInCode_map_onLine (hfirst hshebang)) true
    rw [List.forall₂_map_left_iff] at hleaves
    exact ⟨kept, hleaves.imp fun _ _ => Segment.leaves_onLine.1, by rw [hlength, hstrip]⟩
  · have hlength : shebangLength .rust (textOf (segments.map Segment.onLine)) = 0 := by
      rw [shebangLength, if_neg]
      rw [Bool.and_eq_true, Text.startsWith_iff]
      exact fun hboth => hshebang hboth.2
    refine ⟨segments.map Segment.uncommented, forall₂_leaves_uncommented segments, ?_⟩
    rw [hlength, strip_textOf rust_apart hfit hcharacters, List.flatMap_map]
    simp only [Segment.uncommented_onLine, List.flatMap_def]

theorem exists_mem_leaves {segments : List Segment} {kept : List Text}
    (h : List.Forall₂ Segment.Leaves segments kept) {segment : Segment} (hmem : segment ∈ segments) :
    ∃ piece ∈ kept, segment.Leaves piece := by
  induction h with
  | nil => cases hmem
  | cons hleaves _ ih =>
    rcases List.mem_cons.1 hmem with rfl | hrest
    · exact ⟨_, List.mem_cons_self, hleaves⟩
    · obtain ⟨piece, hpiece, hpart⟩ := ih hrest
      exact ⟨piece, List.mem_cons_of_mem _ hpiece, hpart⟩

/-- **Strings are kept.**  Of a text of Rust in which line feeds stand inside strings only behind
backslashes, code and strings are kept in their places, and of comments their line feeds are left,
or all of them on a first line that is kept.  So up to white space at line ends every string is found
in the result, whatever marks stand inside it.  A first line that begins like the name of an
interpreter has to end in code. -/
theorem removeComments_keeps_strings {segments : List Segment} (h : IsStringText segments)
    (hlines : ∀ inside, .string inside ∈ segments → Inside (.inLine ['"']) inside)
    (hfirst : ['#', '!'] <+: textOf segments → EndsFirstLineInCode segments) :
    (∃ kept, List.Forall₂ Segment.Leaves segments kept ∧
      Syntax.rust.removeComments (textOf segments) = trimLineEnds kept.flatten) ∧
    ∀ inside, .string inside ∈ segments →
      trimLineEnds ('"' :: inside ++ ['"']) <:+: Syntax.rust.removeComments (textOf segments) := by
  obtain ⟨kept, hleaves, hresult⟩ := exists_kept_removeComments h hlines hfirst
  refine ⟨⟨kept, hleaves, hresult⟩, fun inside hmem => ?_⟩
  obtain ⟨piece, hpiece, hstring⟩ := exists_mem_leaves hleaves hmem
  obtain rfl : piece = '"' :: inside ++ ['"'] := hstring.elim id id
  obtain ⟨front, back, rfl⟩ := List.append_of_mem hpiece
  rw [hresult, List.flatten_append, List.flatten_cons, ← List.append_assoc]
  exact trimLineEnds_isInfix (by decide) (by decide) front.flatten inside back.flatten

/-- Marks and an escaped quote in a string that goes on behind an escaped line feed, below an inner
attribute and in front of comments with quotes in them. -/
theorem removeComments_keeps_strings_escaped :
    let inside := "// \\\" \\\n  /*".toList
    let segments : List Segment :=
      [.code "#![a]\nlet s=".toList, .string inside, .code ";".toList,
        .blockComment ("/*".toList, "*/".toList) " \" */".toList, .string [],
        .lineComment "//".toList " \"".toList, .code "\n".toList]
    IsStringText segments ∧ Inside (.inLine ['"']) inside ∧
      trimLineEnds ('"' :: inside ++ ['"']) <:+: Syntax.rust.removeComments (textOf segments) := by
  intro inside segments
  have hinside : Inside (.inLine ['"']) inside := by
    repeat
      first
      | exact .empty
      | refine .plain (by decide) (by decide) (by decide) ?_
      | refine .escape _ ?_
  have hcut : cutAt? "*/".toList " \" */".toList = some (" \" ".toList, []) := rfl
  have hfit : Fit rustGrammar segments :=
    ⟨fits_code (by decide), ⟨by decide, hinside.acrossLines⟩, fits_code (by decide),
      fits_blockComment (by decide) hcut _, ⟨by decide, .empty⟩,
      ⟨by decide, by decide, by decide, .inr rfl⟩, fits_code (by decide), trivial⟩
  have htext : IsStringText segments := by
    refine ⟨hfit, fun quote other hmem => ?_⟩
    rcases (by simpa [segments, Segment.string] using hmem :
      (quote = .acrossLines ['"'] ∧ other = inside) ∨ (quote = .acrossLines ['"'] ∧ other = [])) with
      ⟨rfl, -⟩ | ⟨rfl, -⟩ <;> rfl
  refine ⟨htext, hinside, (removeComments_keeps_strings htext ?_ ?_).2 inside (by simp [segments])⟩
  · intro other hmem
    rcases (by simpa [segments, Segment.string] using hmem : other = inside ∨ other = []) with
      rfl | rfl
    · exact hinside
    · exact .empty
  · rintro - segment hfound
    exact ⟨"#![a]\nlet s=".toList, (Option.some.inj hfound).symm⟩

/-- A mark behind a bare line feed in a string opens a comment, and the end of the string is lost. -/
theorem removeComments_loses_string :
    ¬ ∀ segments, IsStringText segments → ∀ inside, .string inside ∈ segments →
      trimLineEnds ('"' :: inside ++ ['"']) <:+:
        Syntax.rust.removeComments (textOf segments) := by
  intro hkeeps
  let inside := "a\n// b".toList
  let segments : List Segment := [.code "let s = ".toList, .string inside, .code ";\n".toList]
  have hinside : Inside (.acrossLines ['"']) inside := by
    repeat
      first
      | exact .empty
      | refine .plain (by decide) (by decide) (by decide) ?_
  have htext : IsStringText segments :=
    ⟨⟨fits_code (by decide), ⟨by decide, hinside⟩, fits_code (by decide), trivial⟩,
      by simp [segments, Segment.string]⟩
  have hresult : Syntax.rust.removeComments (textOf segments) = "let s = \"a\n".toList := by decide
  have hinfix := hkeeps segments htext inside (by simp [segments])
  rw [hresult] at hinfix
  exact absurd hinfix (by decide)

end SourceBundle.Comments
