import SourceBundle.Proofs.Outline.Excerpts

/-!
# Headers of declarations

A declaration with a body reads as a header, the brace that opens the body, and what follows.  A rule
that sees rows and braces only cannot tell this brace from others, so it takes one for it: the last
one of the first row that has any.  Every text with a brace is cut there (`exists_cutsAt`), and only
there, since what stands before two braces of a text is never the same (`Text.eq_of_append_cons_eq`).

So an outline keeps the header of a declaration as it is, but for white space at its end, exactly if
the brace of the body is the one that is taken (`keptText?_eq_header_iff`).  It is not if the header
has a brace on a row above, as a parameter with an object type over several rows does, and not if the
body has one behind the opening brace on its row, as a function on one row that returns an object
does.
-/

namespace SourceBundle.Outline

/-! ## Declarations with bodies -/

/-- The roles of captures of which an outline keeps the header. -/
def bodyRoles : Language → List String
  | .typeScript | .tsx | .javaScript =>
    ["definition.function", "definition.method", "definition.class"]
  | .go => ["definition.function", "definition.method"]
  | _ => []

/-- The rows of the file on which a capture stands. -/
def Capture.sourceRows (c : Capture) (rows : List Text) : List Text :=
  (rows.drop c.startRow).take (max c.endRow c.startRow + 1 - c.startRow)

/-- The number of braces that are open behind a text, unless it closes one that is not open. -/
def openBraces? (isOpen : Nat) : Text → Option Nat
  | [] => some isOpen
  | c :: t =>
    if c = '\x7b' then openBraces? (isOpen + 1) t
    else if c = '\x7d' then
      match isOpen with
      | 0 => none
      | isOpen + 1 => openBraces? isOpen t
    else openBraces? isOpen t

/-- From the start of its first row on, the capture reads as a header, the brace that opens a body,
and what follows. -/
structure HasBody (rows : List Text) (c : Capture) (header body : Text) : Prop where
  reads : Text.unrows (c.sourceRows rows) = header ++ '\x7b' :: body
  /-- The header begins on the first row of the capture. -/
  starts : header.head? ≠ some '\n'
  solid : Text.allBlank header = false
  balanced : openBraces? 0 header = some 0

/-- The brace between header and body is the last one of its row, and no row above has one. -/
def CutsAt (header body : Text) : Prop :=
  (∀ row ∈ (Text.rows header).dropLast, '\x7b' ∉ row) ∧
    ∀ row ∈ (Text.rows body).head?, '\x7b' ∉ row

instance (header body : Text) : Decidable (CutsAt header body) :=
  inferInstanceAs (Decidable (_ ∧ _))

/-! ## Where a text is cut -/

variable {header body t : Text}

/-- The rows of a header, a brace and a body. -/
theorem exists_rows_body (header body : Text) :
    ∃ front last first rest, Text.rows header = front ++ [last] ∧ Text.rows body = first :: rest ∧
      Text.rows (header ++ '\x7b' :: body) = front ++ (last ++ '\x7b' :: first) :: rest := by
  obtain ⟨front, last, head, rest, hheader, hbody, hrows⟩ :=
    Text.exists_rows_append header ('\x7b' :: body)
  obtain ⟨first, rest', hfirst⟩ := Text.exists_pieces_eq_cons '\n' body
  have hbrace : Text.rows ('\x7b' :: body) = ('\x7b' :: first) :: rest' :=
    Text.pieces_cons_of_ne (by decide) hfirst
  obtain ⟨rfl, rfl⟩ := List.cons.inj (hbody.symm.trans hbrace)
  exact ⟨front, last, first, rest, hheader, hfirst, hrows⟩

/-- A text that is cut at a brace shows the rows above it and, unless it is blank, what stands before
it on its row. -/
theorem headerRows_of_cutsAt (h : CutsAt header body) :
    ∃ front last, Text.rows header = front ++ [last] ∧
      headerRows (Text.rows (header ++ '\x7b' :: body)) =
        front ++ if Text.allBlank last then [] else [Text.trimEnd last] := by
  obtain ⟨front, last, first, rest, hheader, hbody, hrows⟩ := exists_rows_body header body
  obtain ⟨habove, hbehind⟩ := h
  rw [hheader, List.dropLast_concat] at habove
  rw [hbody] at hbehind
  have hnone : ∀ row ∈ front, Text.beforeLast? '\x7b' row = none := fun row hrow =>
    Text.beforeLast?_eq_none_iff.mpr (habove row hrow)
  have hlast : Text.beforeLast? '\x7b' (last ++ '\x7b' :: first) = some last :=
    Text.beforeLast?_append_cons (hbehind first rfl) last
  refine ⟨front, last, hheader, ?_⟩
  rw [hrows, headerRows_append hnone, headerRows, hlast]

/-- But for white space at its end the shown text is the header. -/
theorem trimEnd_of_cutsAt (h : CutsAt header body) {x : Text}
    (hx : unrows? (headerRows (Text.rows (header ++ '\x7b' :: body))) = some x) :
    Text.trimEnd x = Text.trimEnd header := by
  obtain ⟨front, last, hheader, hshown⟩ := headerRows_of_cutsAt h
  obtain ⟨hne, rfl⟩ := unrows?_eq_some.mp hx
  rw [hshown] at hne ⊢
  rw [← Text.unrows_rows header, hheader]
  by_cases hblank : Text.allBlank last = true
  · rw [if_pos hblank, List.append_nil] at hne ⊢
    have hnewline : Text.allBlank ('\n' :: last) = true := by
      rw [Text.allBlank, List.all_cons, ← Text.allBlank, hblank]
      rfl
    have hjoin : Text.unrows (front ++ [last]) = Text.unrows front ++ '\n' :: last := by
      rw [Text.unrows, Text.join_append hne (List.cons_ne_nil last [])]
      simp [Text.unrows, Text.join]
    rw [hjoin, Text.trimEnd_append_blank hnewline]
  · rw [if_neg hblank]
    obtain ⟨lead, hlead⟩ := exists_unrows_concat front
    have hsolid : Text.allBlank last = false := Bool.eq_false_iff.mpr hblank
    rw [hlead, hlead, ← Text.trimEnd_append hsolid, Text.trimEnd_trimEnd]

/-- Of a header that is not blank something is shown. -/
theorem headerRows_ne_nil (h : CutsAt header body) (hsolid : Text.allBlank header = false) :
    headerRows (Text.rows (header ++ '\x7b' :: body)) ≠ [] := by
  obtain ⟨front, last, hheader, hshown⟩ := headerRows_of_cutsAt h
  rw [hshown]
  intro hnil
  obtain ⟨hfront, hlast⟩ := List.append_eq_nil_iff.mp hnil
  have hblank : Text.allBlank last = true := by
    by_contra hnot
    rw [if_neg hnot] at hlast
    cases hlast
  rw [← Text.unrows_rows header, hheader, hfront] at hsolid
  rw [show Text.unrows ([] ++ [last]) = last from rfl, hblank] at hsolid
  cases hsolid

/-- A text with a brace has a brace at which it is cut. -/
theorem exists_cutsAt (h : '\x7b' ∈ t) :
    ∃ header body, t = header ++ '\x7b' :: body ∧ CutsAt header body := by
  have hbraced : ((Text.rows t).find? fun row => row.contains '\x7b').isSome := by
    obtain ⟨u, v, rfl⟩ := List.append_of_mem h
    obtain ⟨front, last, first, rest, -, -, hrows⟩ := exists_rows_body u v
    rw [hrows, List.find?_isSome]
    exact ⟨_, List.mem_append_right front List.mem_cons_self, by simp⟩
  obtain ⟨row, hrow⟩ := Option.isSome_iff_exists.mp hbraced
  obtain ⟨hmem, above, rest, hrows, hnone⟩ := List.find?_eq_some_iff_append.mp hrow
  obtain ⟨head, tail, rfl, hbehind⟩ :=
    Text.exists_last_append_cons (List.contains_iff_mem.mp hmem)
  have hrest : ∀ other ∈ Text.rows t, '\n' ∉ other := fun _ => Text.newline_not_mem_of_mem_rows
  rw [hrows, List.forall_mem_append, List.forall_mem_cons] at hrest
  obtain ⟨hfront, hcut, hrest⟩ := hrest
  rw [List.mem_append, List.mem_cons, not_or, not_or] at hcut
  have hheader : Text.rows (Text.unrows (above ++ [head])) = above ++ [head] := by
    refine Text.rows_unrows (by simp) ?_
    rw [List.forall_mem_append, List.forall_mem_singleton]
    exact ⟨hfront, hcut.1⟩
  have hbody : Text.rows (Text.unrows (tail :: rest)) = tail :: rest := by
    refine Text.rows_unrows (by simp) ?_
    rw [List.forall_mem_cons]
    exact ⟨hcut.2.2, hrest⟩
  refine ⟨Text.unrows (above ++ [head]), Text.unrows (tail :: rest), ?_, ?_, ?_⟩
  · have hbrace : Text.unrows (('\x7b' :: tail) :: rest) =
        '\x7b' :: Text.unrows (tail :: rest) :=
      Text.unrows_append_cons [] ['\x7b'] tail rest
    rw [← hbrace, ← Text.unrows_append_cons, ← hrows, Text.unrows_rows]
  · rw [hheader, List.dropLast_concat]
    intro other hother
    simpa using hnone other hother
  · rw [hbody]
    rintro other ⟨⟩
    exact hbehind

/-- The brace at which a text is cut is the only one before which stands what is shown. -/
theorem shows_header_iff (hsolid : Text.allBlank header = false) :
    (unrows? (headerRows (Text.rows (header ++ '\x7b' :: body)))).map Text.trimEnd =
        some (Text.trimEnd header) ↔ CutsAt header body := by
  constructor
  · intro h
    obtain ⟨x, hx, hshown⟩ := Option.map_eq_some_iff.mp h
    have hmem : '\x7b' ∈ header ++ '\x7b' :: body :=
      List.mem_append_right header List.mem_cons_self
    obtain ⟨header', body', hsplit, hcut⟩ := exists_cutsAt hmem
    rw [hsplit] at hx
    have hsame : header = header' := by
      refine Text.eq_of_append_cons_eq (by decide) hsplit ?_
      rw [← hshown, trimEnd_of_cutsAt hcut hx]
    subst hsame
    obtain ⟨-, rfl⟩ := List.cons.inj (List.append_cancel_left hsplit)
    exact hcut
  · intro hcut
    have hx := unrows?_eq_some.mpr ⟨headerRows_ne_nil hcut hsolid, rfl⟩
    rw [hx, Option.map_some, trimEnd_of_cutsAt hcut hx]

/-! ## What an outline keeps -/

variable {language : Language} {rows : List Text} {c : Capture}

/-- Of functions and methods, and of classes where these have roles, the header is kept. -/
theorem text?_of_mem_bodyRoles (h : c.role ∈ (bodyRoles language).map String.toList)
    (rows : List Text) :
    (strategyFor language).text? rows c = signature? rows c.startRow c.endRow := by
  obtain ⟨role, startRow, stopRow, stopColumn, colonRow⟩ := c
  obtain ⟨word, hword, rfl⟩ := List.mem_map.mp h
  cases language with
  | typeScript | tsx | javaScript =>
    simp only [bodyRoles, List.mem_cons, List.not_mem_nil, or_false] at hword
    rcases hword with rfl | rfl | rfl <;> rfl
  | go =>
    simp only [bodyRoles, List.mem_cons, List.not_mem_nil, or_false] at hword
    rcases hword with rfl | rfl <;> rfl
  | _ => exact absurd hword List.not_mem_nil

/-- What is kept of a declaration with a body is what the rows of header and body show. -/
theorem keptText?_of_hasBody (hrole : c.role ∈ (bodyRoles language).map String.toList)
    (hrows : ∀ row ∈ rows, '\n' ∉ row) (h : HasBody rows c header body) :
    keptText? (strategyFor language) rows c =
      unrows? (headerRows (Text.rows (header ++ '\x7b' :: body))) := by
  have hne : c.sourceRows rows ≠ [] := by
    intro hnil
    have hreads := h.reads
    rw [hnil] at hreads
    exact absurd hreads.symm (by simp [Text.unrows, Text.join])
  have hsource : c.sourceRows rows = Text.rows (header ++ '\x7b' :: body) := by
    rw [← h.reads, Text.rows_unrows hne]
    intro row hrow
    exact hrows row (List.mem_of_mem_drop (List.mem_of_mem_take hrow))
  have hheader : header ≠ [] := by
    rintro rfl
    cases h.solid
  obtain ⟨d, u, rfl⟩ := List.exists_cons_of_ne_nil hheader
  have hd : d ≠ '\n' := fun hd => h.starts (by rw [hd]; rfl)
  obtain ⟨piece, rest, hpiece⟩ := Text.exists_pieces_eq_cons '\n' (u ++ '\x7b' :: body)
  have hfirst : rows[c.startRow]? = some (d :: piece) := by
    have hhead := congrArg List.head? hsource
    rw [List.cons_append, Text.rows, Text.pieces_cons_of_ne hd hpiece, Capture.sourceRows,
      List.head?_take, if_neg (by omega), List.head?_drop] at hhead
    exact hhead
  rw [keptText?, hfirst]
  simp only [text?_of_mem_bodyRoles hrole, signature?_eq_unrows?]
  rw [← hsource, Capture.sourceRows]

/-- An outline keeps the header of a declaration, and of what follows nothing, exactly if the text is
cut at the brace between them.  Then the header is the content of a chunk. -/
theorem keptText?_eq_header_iff {t : Text}
    (hrole : c.role ∈ (bodyRoles language).map String.toList)
    (h : HasBody (Text.rows t) c header body) :
    ((keptText? (strategyFor language) (Text.rows t) c).map Text.trimEnd =
        some (Text.trimEnd header) ↔ CutsAt header body) ∧
      (CutsAt header body → ∀ captures : List Capture, c ∈ captures →
        ∃ chunk ∈ chunks (strategyFor language) t captures,
          chunk.content = Text.trim header ∧ chunk.startRow ≤ c.startRow) := by
  have hkept := keptText?_of_hasBody hrole (fun _ => Text.newline_not_mem_of_mem_rows) h
  have hshows : (keptText? (strategyFor language) (Text.rows t) c).map Text.trimEnd =
      some (Text.trimEnd header) ↔ CutsAt header body := by
    rw [hkept]
    exact shows_header_iff h.solid
  refine ⟨hshows, fun hcut captures hc => ?_⟩
  obtain ⟨x, hx, htrim⟩ := Option.map_eq_some_iff.mp (hshows.mpr hcut)
  have selects : Selects (strategyFor language) (Text.rows t) c (Text.trim header) := by
    rw [Selects, hx, Option.map_some, ← Text.trim_trimEnd x, htrim, Text.trim_trimEnd]
  have hmem := mem_inRowOrder.mpr hc
  obtain ⟨chunk, hchunk, hcontent⟩ := exists_chunk_of_selects hmem selects List.not_mem_nil
  refine ⟨chunk, hchunk, hcontent, ?_⟩
  exact startRow_le_of_mem_chunksFrom (pairwise_inRowOrder captures) hchunk hmem (hcontent ▸ selects)

-- A header with a brace above its last row is cut there.
example :
    ofText .javaScript "function f(\x7b\n  a,\n\x7d) \x7b\n  return a;\n\x7d\n".toList
        [⟨"definition.function".toList, 0, 4, 1, none⟩] =
      "function f(".toList := by
  decide +kernel

/-! ## Braces on the row of the body -/

/-- The header of a method, over three rows, with braces before the one that opens the body. -/
def runHeader : Text := "func (s *Server) Run(\n\ta int,\n\tb struct\x7b n int \x7d) error ".toList

/-- What follows the opening brace of the method. -/
def runBody : Text := "\n\tif a > 0 \x7b return nil \x7d\n\x7d".toList

/-- What the grammar marks of the method. -/
def runCapture : Capture := ⟨"definition.method".toList, 0, 4, 1, none⟩

theorem keptText?_eq_header_run :
    let t := runHeader ++ '\x7b' :: runBody ++ ['\n']
    runCapture.role ∈ (bodyRoles .go).map String.toList ∧
      HasBody (Text.rows t) runCapture runHeader runBody ∧ CutsAt runHeader runBody ∧
      (keptText? (strategyFor .go) (Text.rows t) runCapture).map Text.trimEnd =
        some "func (s *Server) Run(\n\ta int,\n\tb struct\x7b n int \x7d) error".toList ∧
      ∃ chunk ∈ chunks (strategyFor .go) t [runCapture],
        chunk.content = Text.trim runHeader ∧ chunk.startRow ≤ 0 := by
  intro t
  have hrole : runCapture.role ∈ (bodyRoles .go).map String.toList := by decide
  have hbody : HasBody (Text.rows t) runCapture runHeader runBody :=
    ⟨by decide +kernel, by decide, by decide +kernel, by decide +kernel⟩
  have hcut : CutsAt runHeader runBody := by decide +kernel
  have hheader : Text.trimEnd runHeader =
      "func (s *Server) Run(\n\ta int,\n\tb struct\x7b n int \x7d) error".toList := by
    decide +kernel
  obtain ⟨hkept, hchunk⟩ := keptText?_eq_header_iff hrole hbody
  exact ⟨hrole, hbody, hcut, hheader ▸ hkept.mpr hcut,
    hchunk hcut [runCapture] List.mem_cons_self⟩

/-- A function on one row that returns an object. -/
def pairFunction : Text := "function f() \x7b return \x7b a: 1 \x7d; \x7d\n".toList

/-- What the grammar marks in `pairFunction`. -/
def pairCapture : Capture := ⟨"definition.function".toList, 0, 0, 33, none⟩

/-- The outline goes on into the body, up to the brace of the object. -/
theorem keptText?_ne_header_pairFunction :
    ofText .javaScript pairFunction [pairCapture] = "function f() \x7b return".toList ∧
      ¬ ∀ (language : Language) (t : Text) (c : Capture) (header body : Text),
        c.role ∈ (bodyRoles language).map String.toList → HasBody (Text.rows t) c header body →
          (keptText? (strategyFor language) (Text.rows t) c).map Text.trimEnd =
            some (Text.trimEnd header) := by
  refine ⟨by decide +kernel, fun all => ?_⟩
  have hbody : HasBody (Text.rows pairFunction) pairCapture "function f() ".toList
      " return \x7b a: 1 \x7d; \x7d".toList :=
    ⟨by decide +kernel, by decide, by decide +kernel, by decide +kernel⟩
  have hkept := all .javaScript pairFunction pairCapture _ _ (by decide) hbody
  have hother : (keptText? (strategyFor .javaScript) (Text.rows pairFunction) pairCapture).map
      Text.trimEnd ≠ some (Text.trimEnd "function f() ".toList) := by decide +kernel
  exact hother hkept

end SourceBundle.Outline
