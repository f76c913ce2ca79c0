import SourceBundle.Proofs.Comments.Segments
import SourceBundle.Proofs.Text.LineEnds

/-!
# Block comments in block comments

In Rust and Haskell block comments nest: a comment ends with the closing mark that belongs to its
opening mark.  The scanner counts nothing.  For it a comment ends with the first closing mark behind
the opening one, and what is behind that mark is code.

A text is cut into words and marks (`Part`), and both ways to read it are told from these.  By depth,
all words inside comments leave their line feeds (`nestedLeft`); by the first closing mark, words
behind it are left, and so are closing marks that close nothing (`firstLeft`).  The scanner follows
the second (`removeComments_nested`), as long as what it takes for code opens nothing else.  The two
agree exactly when no comment stands inside another: each opening mark inside a comment costs one
closing mark that is left (`add_count_nestedLeft_le`).
-/

namespace SourceBundle.Comments

open Text

/-! ## Words and marks -/

/-- A part of a text with block comments. -/
inductive Part where
  | words (t : Text)
  | opening
  | closing

/-- The text of a part, for comments with the marks of `block`. -/
def Part.text (block : Text × Text) : Part → Text
  | words t => t
  | opening => block.1
  | closing => block.2

/-- The text put together from parts. -/
def textOfParts (block : Text × Text) (parts : List Part) : Text := parts.flatMap (Part.text block)

/-- No occurrence of a mark begins in a text that is followed by `rest`. -/
def Lacks (mark rest : Text) : Text → Prop
  | [] => True
  | c :: t => ¬ mark <+: c :: (t ++ rest) ∧ Lacks mark rest t

instance decidableLacks (mark rest : Text) : (t : Text) → Decidable (Lacks mark rest t)
  | [] => inferInstanceAs (Decidable True)
  | c :: t =>
    have := decidableLacks mark rest t
    inferInstanceAs (Decidable (¬ mark <+: c :: (t ++ rest) ∧ Lacks mark rest t))

/-- The parts are those of a text in which `depth` comments are open and comments nest.  Outside
comments words are code that opens nothing; inside there are no marks in them. -/
def Nests (s : Syntax) (block : Text × Text) : (depth : Nat) → List Part → Prop
  | depth, [] => depth = 0
  | 0, .words t :: rest =>
    (Segment.code t).Fits s (textOfParts block rest) ∧ Nests s block 0 rest
  | depth + 1, .words t :: rest =>
    Lacks block.1 (textOfParts block rest) t ∧ Lacks block.2 (textOfParts block rest) t ∧
      Nests s block (depth + 1) rest
  | depth, .opening :: rest => Nests s block (depth + 1) rest
  | 0, .closing :: _ => False
  | depth + 1, .closing :: rest => Nests s block depth rest

/-- What is left of parts when a comment goes to the closing mark that belongs to its opening mark:
code, and the line feeds of comments. -/
def nestedLeft : (depth : Nat) → List Part → Text
  | _, [] => []
  | 0, .words t :: rest => t ++ nestedLeft 0 rest
  | depth + 1, .words t :: rest => t.filter (· == '\n') ++ nestedLeft (depth + 1) rest
  | depth, .opening :: rest => nestedLeft (depth + 1) rest
  | depth, .closing :: rest => nestedLeft (depth - 1) rest

/-- What is left of parts when a comment goes to the first closing mark. -/
def firstLeft (block : Text × Text) : (isOpen : Bool) → List Part → Text
  | _, [] => []
  | false, .words t :: rest => t ++ firstLeft block false rest
  | true, .words t :: rest => t.filter (· == '\n') ++ firstLeft block true rest
  | _, .opening :: rest => firstLeft block true rest
  | false, .closing :: rest => block.2 ++ firstLeft block false rest
  | true, .closing :: rest => firstLeft block false rest

/-- No comment stands inside another. -/
def Unnested : (isOpen : Bool) → List Part → Prop
  | _, [] => True
  | isOpen, .words _ :: rest => Unnested isOpen rest
  | false, .opening :: rest => Unnested true rest
  | true, .opening :: _ => False
  | _, .closing :: rest => Unnested false rest

/-- What stands outside comments, when these go to the first closing mark, is code that opens
nothing, and inside no other closing mark begins.  The last comment is closed, and the text behind
the parts is `behind`. -/
def ReadsFlat (s : Syntax) (block : Text × Text) (behind : Text) : (isOpen : Bool) → List Part → Prop
  | isOpen, [] => isOpen = false
  | false, .words t :: rest =>
    (Segment.code t).Fits s (textOfParts block rest ++ behind) ∧ ReadsFlat s block behind false rest
  | true, .words t :: rest =>
    Lacks block.2 (textOfParts block rest ++ behind) t ∧ ReadsFlat s block behind true rest
  | false, .opening :: rest => ReadsFlat s block behind true rest
  | true, .opening :: rest =>
    Lacks block.2 (textOfParts block rest ++ behind) block.1 ∧ ReadsFlat s block behind true rest
  | false, .closing :: rest =>
    (Segment.code block.2).Fits s (textOfParts block rest ++ behind) ∧
      ReadsFlat s block behind false rest
  | true, .closing :: rest => ReadsFlat s block behind false rest

/-! ## The scanner takes the first closing mark -/

theorem lacks_append {mark rest u v : Text} :
    Lacks mark rest (u ++ v) ↔ Lacks mark (v ++ rest) u ∧ Lacks mark rest v := by
  induction u with
  | nil => simp [Lacks]
  | cons c u ih => simp [Lacks, ih, and_assoc]

/-- A mark that begins nowhere in a text is first found behind it. -/
theorem cutAt?_of_lacks {mark rest t : Text} (h : Lacks mark (mark ++ rest) t) :
    cutAt? mark (t ++ mark) = some (t, []) := by
  have hcut : cutAt? mark (t ++ mark ++ []) = some (t, []) := by
    refine cutAt?_append fun u w ht hw hpre => ?_
    obtain ⟨c, w, rfl⟩ := List.exists_cons_of_ne_nil hw
    rw [ht, lacks_append] at h
    refine h.2.1 (hpre.trans ⟨rest, ?_⟩)
    simp
  rwa [List.append_nil] at hcut

/-- The segments of parts when a comment goes to the first closing mark.  What has been read of an
open comment is `open?`. -/
def flatSegments (block : Text × Text) : (open? : Option Text) → List Part → List Segment
  | none, [] => []
  | some _, [] => []
  | none, .words t :: rest => .code t :: flatSegments block none rest
  | none, .opening :: rest => flatSegments block (some []) rest
  | none, .closing :: rest => .code block.2 :: flatSegments block none rest
  | some u, .words t :: rest => flatSegments block (some (u ++ t)) rest
  | some u, .opening :: rest => flatSegments block (some (u ++ block.1)) rest
  | some u, .closing :: rest =>
    .blockComment block (u ++ block.2) :: flatSegments block none rest

/-- The text of a comment that is open. -/
def openText (block : Text × Text) : (open? : Option Text) → Text
  | none => []
  | some u => block.1 ++ u

theorem textOfParts_cons (block : Text × Text) (part : Part) (rest : List Part) :
    textOfParts block (part :: rest) = part.text block ++ textOfParts block rest :=
  List.flatMap_cons

theorem textOf_cons (segment : Segment) (rest : List Segment) :
    textOf (segment :: rest) = segment.text ++ textOf rest := List.flatMap_cons

section Flat

variable {s : Syntax} {block : Text × Text} {behind : Text} {parts : List Part}
  {open? : Option Text}

theorem textOf_flatSegments (h : ReadsFlat s block behind open?.isSome parts) :
    textOf (flatSegments block open? parts) = openText block open? ++ textOfParts block parts := by
  fun_induction flatSegments block open? parts with
  | case1 => rfl
  | case2 => cases h
  | case3 t rest ih => rw [textOf_cons, textOfParts_cons, ih h.2]; rfl
  | case4 rest ih =>
    rw [textOfParts_cons, ih h]
    exact congrArg (· ++ textOfParts block rest) (List.append_nil block.1)
  | case5 rest ih => rw [textOf_cons, textOfParts_cons, ih h.2]; rfl
  | case6 u t rest ih =>
    rw [textOfParts_cons, ih h.2]
    simp [openText, Part.text]
  | case7 u rest ih =>
    rw [textOfParts_cons, ih h.2]
    simp [openText, Part.text]
  | case8 u rest ih =>
    rw [textOf_cons, textOfParts_cons, ih h]
    simp [openText, Part.text, Segment.text]

/-- The segments fit. -/
theorem fitBefore_flatSegments (hblock : block ∈ s.blocks)
    (h : ReadsFlat s block behind open?.isSome parts)
    (hopen : ∀ u, open? = some u → Lacks block.2 (textOfParts block parts ++ behind) u) :
    FitBefore s behind (flatSegments block open? parts) := by
  fun_induction flatSegments block open? parts with
  | case1 => trivial
  | case2 => trivial
  | case3 t rest ih =>
    refine ⟨?_, ih h.2 nofun⟩
    rw [textOf_flatSegments h.2]
    exact h.1
  | case4 rest ih => exact ih h fun u hu => by cases hu; trivial
  | case5 rest ih =>
    refine ⟨?_, ih h.2 nofun⟩
    rw [textOf_flatSegments h.2]
    exact h.1
  | case6 u t rest ih =>
    refine ih h.2 fun v hv => ?_
    cases hv
    have hu := hopen u rfl
    rw [textOfParts_cons, List.append_assoc] at hu
    exact lacks_append.mpr ⟨hu, h.1⟩
  | case7 u rest ih =>
    refine ih h.2 fun v hv => ?_
    cases hv
    have hu := hopen u rfl
    rw [textOfParts_cons, List.append_assoc] at hu
    exact lacks_append.mpr ⟨hu, h.1⟩
  | case8 u rest ih =>
    refine ⟨?_, ih h nofun⟩
    have hu := hopen u rfl
    rw [textOfParts_cons, List.append_assoc] at hu
    exact fits_blockComment hblock (cutAt?_of_lacks hu) _

theorem filter_newline_eq_nil {t : Text} (h : '\n' ∉ t) : t.filter (· == '\n') = [] :=
  List.filter_eq_nil_iff.mpr fun _ hc heq => h (eq_of_beq heq ▸ hc)

/-- Code is left of the segments, and of comments their line feeds. -/
theorem uncommented_flatSegments (hopening : '\n' ∉ block.1) (hclosing : '\n' ∉ block.2)
    (h : ReadsFlat s block behind open?.isSome parts) :
    (flatSegments block open? parts).flatMap Segment.uncommented =
      (openText block open?).filter (· == '\n') ++ firstLeft block open?.isSome parts := by
  have hnone := filter_newline_eq_nil hopening
  have hnone' := filter_newline_eq_nil hclosing
  fun_induction flatSegments block open? parts with
  | case1 => rfl
  | case2 => cases h
  | case3 t rest ih => exact congrArg (t ++ ·) (ih h.2)
  | case4 rest ih =>
    rw [ih h]
    simp [openText, hnone, firstLeft]
  | case5 rest ih => exact congrArg (block.2 ++ ·) (ih h.2)
  | case6 u t rest ih =>
    rw [ih h.2]
    simp [openText, firstLeft]
  | case7 u rest ih =>
    rw [ih h.2]
    simp [openText, firstLeft, hnone]
  | case8 u rest ih =>
    rw [List.flatMap_cons, ih h]
    simp [openText, firstLeft, Segment.uncommented, hnone']

theorem literal_not_mem_flatSegments (quote : Quote) (inside : Text) :
    .literal quote inside ∉ flatSegments block open? parts := by
  fun_induction flatSegments block open? parts <;> simp_all

/-- The scanner takes comments to the first closing mark, and goes on with what is behind them. -/
theorem strip_textOfParts (hs : s.Apart) (hblock : block ∈ s.blocks)
    (hclosing : '\n' ∉ block.2) (h : ReadsFlat s block behind false parts) (isBare : Bool) :
    strip s 0 .copied isBare (textOfParts block parts ++ behind) =
      firstLeft block false parts ++ strip s 0 .copied true behind := by
  have hflat : ReadsFlat s block behind (none : Option Text).isSome parts := h
  have hopening : '\n' ∉ block.1 :=
    (hs.marks block.1 (List.mem_append_right _ (List.mem_map_of_mem hblock))).2.1
  have hstrip := strip_textOf_append hs (fitBefore_flatSegments hblock hflat nofun)
    (fun inside => literal_not_mem_flatSegments _ inside) .copied isBare
  rw [textOf_flatSegments hflat, uncommented_flatSegments hopening hclosing hflat] at hstrip
  exact hstrip

end Flat

/-! ## Closing marks that are left -/

section Counts

variable {s : Syntax} {block : Text × Text} {parts : List Part} {isOpen : Bool} {c : Char}

/-- Parts in which no comment stands inside another are read in one way. -/
theorem Unnested.readsFlat (h : Unnested isOpen parts)
    (hnests : Nests s block isOpen.toNat parts) :
    ReadsFlat s block [] isOpen parts ∧
      firstLeft block isOpen parts = nestedLeft isOpen.toNat parts := by
  fun_induction Unnested isOpen parts with
  | case1 isOpen =>
    cases isOpen with
    | false => exact ⟨rfl, rfl⟩
    | true => cases hnests
  | case2 isOpen t rest ih =>
    cases isOpen with
    | false =>
      obtain ⟨hflat, hleft⟩ := ih h hnests.2
      exact ⟨⟨(List.append_nil (textOfParts block rest)).symm ▸ hnests.1, hflat⟩,
        congrArg (t ++ ·) hleft⟩
    | true =>
      obtain ⟨-, hlacks, hrest⟩ := hnests
      obtain ⟨hflat, hleft⟩ := ih h hrest
      exact ⟨⟨(List.append_nil (textOfParts block rest)).symm ▸ hlacks, hflat⟩,
        congrArg (t.filter (· == '\n') ++ ·) hleft⟩
  | case3 rest ih => exact ih h hnests
  | case4 rest => exact h.elim
  | case5 isOpen rest ih =>
    cases isOpen with
    | false => exact hnests.elim
    | true => exact ih h hnests

/-- Line feeds are all that is left of the words of comments, so of a solid character nothing is. -/
theorem count_filter_newline (hc : isBlank c = false) (t : Text) :
    (t.filter (· == '\n')).count c = 0 := by
  refine List.count_eq_zero.mpr fun hmem => ?_
  exact ne_newline_of_solid hc (eq_of_beq (List.mem_filter.mp hmem).2)

/-- When comments go to the first closing mark, a closing mark is left for each comment that is open
besides the first. -/
theorem add_count_nestedLeft_le (hc : isBlank c = false) (hmem : c ∈ block.2) (depth : Nat)
    (isOpen : Bool) (hnests : Nests s block depth parts) (hopen : isOpen = true → 0 < depth) :
    depth - isOpen.toNat + (nestedLeft depth parts).count c ≤
      (firstLeft block isOpen parts).count c := by
  have hwords := count_filter_newline hc
  have hmark : 1 ≤ block.2.count c := List.count_pos_iff.mpr hmem
  induction parts generalizing depth isOpen with
  | nil =>
    obtain rfl : depth = 0 := by simpa [Nests] using hnests
    simp [nestedLeft]
  | cons part rest ih =>
    cases part with
    | words t =>
      cases depth with
      | zero =>
        obtain rfl : isOpen = false := by simpa using hopen
        have hrest := ih 0 false hnests.2 hopen
        rw [nestedLeft, firstLeft, List.count_append, List.count_append]
        omega
      | succ depth =>
        have hrest := ih (depth + 1) isOpen hnests.2.2 hopen
        rw [nestedLeft, List.count_append, hwords]
        cases isOpen with
        | false =>
          rw [firstLeft, List.count_append]
          omega
        | true =>
          rw [firstLeft, List.count_append, hwords]
          omega
    | opening =>
      have hnests' : Nests s block (depth + 1) rest := by cases depth <;> exact hnests
      have hnested : nestedLeft depth (.opening :: rest) = nestedLeft (depth + 1) rest := by
        cases depth <;> rfl
      have hfirst : firstLeft block isOpen (.opening :: rest) = firstLeft block true rest := by
        cases isOpen <;> rfl
      have hrest := ih (depth + 1) true hnests' fun _ => Nat.succ_pos depth
      rw [hnested, hfirst]
      rw [Bool.toNat_true] at hrest
      omega
    | closing =>
      cases depth with
      | zero => exact hnests.elim
      | succ depth =>
        have hrest := ih depth false hnests nofun
        rw [nestedLeft, Nat.add_sub_cancel]
        cases isOpen with
        | false =>
          rw [firstLeft, List.count_append]
          rw [Bool.toNat_false] at *
          omega
        | true =>
          rw [firstLeft]
          rw [Bool.toNat_false] at hrest
          rw [Bool.toNat_true]
          omega

/-- When some comment stands inside another, a closing mark is left. -/
theorem count_nestedLeft_lt (hc : isBlank c = false) (hmem : c ∈ block.2)
    (hnests : Nests s block isOpen.toNat parts) (h : ¬ Unnested isOpen parts) :
    (nestedLeft isOpen.toNat parts).count c < (firstLeft block isOpen parts).count c := by
  have hwords := count_filter_newline hc
  fun_induction Unnested isOpen parts with
  | case1 isOpen => exact absurd trivial h
  | case2 isOpen t rest ih =>
    cases isOpen with
    | false =>
      have hrest := ih hnests.2 h
      rw [Bool.toNat_false, nestedLeft, firstLeft, List.count_append, List.count_append]
      exact Nat.add_lt_add_left hrest _
    | true =>
      have hrest := ih hnests.2.2 h
      rw [Bool.toNat_true, nestedLeft, firstLeft, List.count_append, List.count_append]
      exact Nat.add_lt_add_left hrest _
  | case3 rest ih => exact ih hnests h
  | case4 rest =>
    have hrest := add_count_nestedLeft_le hc hmem 2 true hnests fun _ => Nat.two_pos
    rw [Bool.toNat_true] at hrest
    have hnested : nestedLeft true.toNat (.opening :: rest) = nestedLeft 2 rest := rfl
    rw [hnested, firstLeft]
    omega
  | case5 isOpen rest ih =>
    cases isOpen with
    | false => exact hnests.elim
    | true => exact ih hnests h

end Counts

/-! ## Comments removed whole -/

/-- The syntaxes of languages in which block comments nest, with their block comments. -/
def nestingSyntaxes : List (Syntax × (Text × Text)) :=
  [(.rust, ("/*".toList, "*/".toList)), (.haskell, ("\x7b-".toList, "-\x7d".toList))]

/-- The marks of nesting comments can be told apart, and a closing mark has a solid character. -/
theorem nesting_cases {s : Syntax} {block : Text × Text} (h : (s, block) ∈ nestingSyntaxes) :
    s.Apart ∧ block ∈ s.blocks ∧ '\n' ∉ block.2 ∧ ∃ c ∈ block.2, isBlank c = false := by
  rcases List.mem_cons.mp h with heq | hrest
  · cases heq
    exact ⟨rust_apart, by decide, by decide, '*', by decide, by decide⟩
  · cases List.mem_singleton.mp hrest
    exact ⟨(clear_of_mem (by decide)).toApart, by decide, by decide, '-', by decide, by decide⟩

/-- **Comments go to the first closing mark.**  In a text of Rust or Haskell with nesting block
comments, behind a first line `lead` that names an interpreter, comments leave nothing but their line
feeds if none stands inside another.

In general, as far as what stands behind first closing marks is code that opens nothing, it is left
with the closing marks (`firstLeft`), and the text behind it is read as code.  Then comments leave
nothing but their line feeds only if none stands inside another. -/
theorem removeComments_nested {s : Syntax} {block : Text × Text}
    (hs : (s, block) ∈ nestingSyntaxes) {lead : Text} {parts : List Part}
    (hnests : Nests s block 0 parts)
    (hlead : shebangLength s (lead ++ textOfParts block parts) = lead.length) :
    let text := lead ++ textOfParts block parts
    (Unnested false parts → s.removeComments text = trimLineEnds (lead ++ nestedLeft 0 parts)) ∧
    (∀ front rest, parts = front ++ rest →
      ReadsFlat s block (textOfParts block rest) false front →
      s.removeComments text = trimLineEnds
        (lead ++ firstLeft block false front ++ strip s 0 .copied true (textOfParts block rest))) ∧
    (ReadsFlat s block [] false parts →
      (s.removeComments text = trimLineEnds (lead ++ nestedLeft 0 parts) ↔
        Unnested false parts)) := by
  intro text
  obtain ⟨hapart, hblock, hclosing, c, hmem, hsolid⟩ := nesting_cases hs
  have hnone : Nests s block false.toNat parts := hnests
  have hgeneral : ∀ front rest, parts = front ++ rest →
      ReadsFlat s block (textOfParts block rest) false front →
      s.removeComments text = trimLineEnds (lead ++ firstLeft block false front ++
        strip s 0 .copied true (textOfParts block rest)) := by
    rintro front rest rfl hflat
    have htext : textOfParts block (front ++ rest) =
        textOfParts block front ++ textOfParts block rest := List.flatMap_append
    rw [removeComments_of_lead hlead, htext, strip_textOfParts hapart hblock hclosing hflat,
      List.append_assoc]
  have hwhole : ReadsFlat s block [] false parts →
      s.removeComments text = trimLineEnds (lead ++ firstLeft block false parts) := by
    intro hflat
    rw [hgeneral parts [] (List.append_nil parts).symm hflat]
    exact congrArg trimLineEnds (List.append_nil _)
  have hunnested : Unnested false parts →
      s.removeComments text = trimLineEnds (lead ++ nestedLeft 0 parts) := by
    intro h
    obtain ⟨hflat, hleft⟩ := h.readsFlat hnone
    rw [hwhole hflat, hleft]
    rfl
  refine ⟨hunnested, hgeneral, fun hflat => ⟨fun hresult => ?_, hunnested⟩⟩
  by_contra hnested
  -- A closing mark is left where none should be.
  have hlt := count_nestedLeft_lt hsolid hmem hnone hnested
  have hcount := congrArg (List.count c) ((hwhole hflat).symm.trans hresult)
  rw [count_trimLineEnds hsolid, count_trimLineEnds hsolid, List.count_append,
    List.count_append] at hcount
  rw [Bool.toNat_false] at hlt
  omega

/-- A comment with a quote and a mark in it is removed whole below an inner attribute.  Of a comment
with others in it, words behind the first closing mark are left, also if a quote is among them. -/
theorem removeComments_nested_rust :
    let marks := ("/*".toList, "*/".toList)
    let lead := "#![a] /* b */".toList
    let side : List Part :=
      [.words "\nx ".toList, .opening, .words " \" // ".toList, .closing, .words "y".toList]
    let front : List Part := [.words "x".toList, .opening, .words "a\n".toList, .opening, .closing]
    let clear : List Part := [.words " b ".toList, .opening, .words "'".toList, .closing, .closing]
    let quoted : List Part := [.words " \"".toList, .closing, .words " y".toList]
    (Nests .rust marks 0 side ∧ Unnested false side ∧
      shebangLength .rust (lead ++ textOfParts marks side) = lead.length ∧
      Syntax.rust.removeComments (lead ++ textOfParts marks side) = "#![a] /* b */\nx y".toList) ∧
    (Nests .rust marks 0 (front ++ clear) ∧ ReadsFlat .rust marks [] false (front ++ clear) ∧
      Syntax.rust.removeComments (textOfParts marks (front ++ clear)) ≠
        trimLineEnds (nestedLeft 0 (front ++ clear))) ∧
    Nests .rust marks 0 (front ++ quoted) ∧
      ReadsFlat .rust marks (textOfParts marks quoted) false front ∧
      Syntax.rust.removeComments (textOfParts marks (front ++ quoted)) =
        "x\n \"*/ y".toList := by
  intro marks lead side front clear quoted
  have hside : Nests .rust marks 0 side :=
    ⟨fits_code (by decide), by decide, by decide, fits_code (by decide), rfl⟩
  have hlead : shebangLength .rust (lead ++ textOfParts marks side) = lead.length := by decide
  have hclear : Nests .rust marks 0 (front ++ clear) :=
    ⟨fits_code (by decide), by decide, by decide, by decide, by decide, by decide, by decide, rfl⟩
  have hflat : ReadsFlat .rust marks [] false (front ++ clear) :=
    ⟨fits_code (by decide), by decide, by decide, fits_code (by decide), by decide,
      fits_code (by decide), rfl⟩
  have hquoted : Nests .rust marks 0 (front ++ quoted) :=
    ⟨fits_code (by decide), by decide, by decide, by decide, by decide, fits_code (by decide), rfl⟩
  have hfront : ReadsFlat .rust marks (textOfParts marks quoted) false front :=
    ⟨fits_code (by decide), by decide, by decide, rfl⟩
  have hmarks : (.rust, marks) ∈ nestingSyntaxes := by decide
  refine ⟨⟨hside, by trivial, hlead, ?_⟩, ⟨hclear, hflat, ?_⟩, hquoted, hfront, ?_⟩
  · rw [(removeComments_nested hmarks hside hlead).1 (by trivial)]
    decide
  · intro hresult
    have hnone : shebangLength .rust ([] ++ textOfParts marks (front ++ clear)) = 0 := by decide
    exact ((removeComments_nested hmarks hclear hnone).2.2 hflat).mp hresult
  · have hnone : shebangLength .rust ([] ++ textOfParts marks (front ++ quoted)) = 0 := by decide
    have hresult := (removeComments_nested hmarks hquoted hnone).2.1 front quoted rfl hfront
    rw [List.nil_append] at hresult
    rw [hresult]
    decide

/-- What stands behind a comment in a comment is left. -/
theorem removeComments_leaves_nested :
    ¬ ∀ s block, (s, block) ∈ nestingSyntaxes → ∀ parts, Nests s block 0 parts →
      ¬ ['#', '!'] <+: textOfParts block parts →
      s.removeComments (textOfParts block parts) = trimLineEnds (nestedLeft 0 parts) := by
  intro hwhole
  let marks := ("/*".toList, "*/".toList)
  let parts : List Part := [.opening, .words " a ".toList, .opening, .words " b ".toList, .closing,
    .words " c ".toList, .closing]
  have hnests : Nests .rust marks 0 parts :=
    ⟨by decide, by decide, by decide, by decide, by decide, by decide, rfl⟩
  have hresult := hwhole .rust marks (by decide) parts hnests (by decide)
  exact absurd hresult (by decide)

end SourceBundle.Comments
