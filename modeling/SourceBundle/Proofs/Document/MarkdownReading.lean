import SourceBundle.Document.Basic
import SourceBundle.Proofs.Text.Leads

/-!
# Reading markdown documents

A reader for markdown documents that knows the settings and the paths of the listing, but not the
files.  It takes the parts off that the settings determine, and then block after block: the heading
gives the path, the line below it the fence, since the info string goes with the path, and the next
line that begins with the fence ends the content.

What makes this work is that a fence is longer than any run of backticks in any file
(`longestRun_lt_fenceLength`), so the first line behind the opening one that begins with the fence
is the closing line of the same block (`cutAt?_fence`), whatever the content holds.  Trimming takes
no more than line feeds off the last block (`render_concat`).  So the reader gives back all files
in their order, and a document belongs to one list of files.
-/

namespace SourceBundle.Document.Markdown

/-! ## Runs of backticks -/

theorem le_longestRunFrom (longest current : Nat) (t : Text) :
    longest ≤ longestRunFrom longest current t := by
  induction t generalizing longest current with
  | nil => exact le_rfl
  | cons c t ih =>
    rw [longestRunFrom]
    split
    · exact (le_max_left _ _).trans (ih _ _)
    · exact ih _ _

/-- A run at the start of a text counts together with the backticks before it. -/
theorem add_le_longestRunFrom {n : Nat} (hn : 0 < n) (longest current : Nat) (t : Text) :
    current + n ≤ longestRunFrom longest current (List.replicate n backtick ++ t) := by
  induction n generalizing longest current with
  | zero => omega
  | succ n ih =>
    rw [List.replicate_succ, List.cons_append, longestRunFrom, if_pos rfl]
    rcases Nat.eq_zero_or_pos n with rfl | hpos
    · exact (le_max_right _ _).trans (le_longestRunFrom _ _ _)
    · have := ih hpos (max longest (current + 1)) (current + 1)
      omega

theorem le_longestRunFrom_of_infix {n : Nat} {t : Text} (h : List.replicate n backtick <:+: t)
    (longest current : Nat) : n ≤ longestRunFrom longest current t := by
  rcases Nat.eq_zero_or_pos n with rfl | hn
  · exact Nat.zero_le _
  obtain ⟨u, v, rfl⟩ := h
  induction u generalizing longest current with
  | nil =>
    have := add_le_longestRunFrom hn longest current v
    simp only [List.nil_append]
    omega
  | cons c u ih =>
    simp only [List.cons_append, longestRunFrom]
    split
    · exact ih _ _
    · exact ih _ _

/-- No run of backticks in a text is longer than its longest run. -/
theorem le_longestRun {n : Nat} {t : Text} (h : List.replicate n backtick <:+: t) :
    n ≤ longestRun t :=
  le_longestRunFrom_of_infix h 0 0

/-- The maximum taken over a list is at least its start and each element. -/
theorem le_foldl_max {n : Nat} {ns : List Nat} (start : Nat) (h : n ≤ start ∨ n ∈ ns) :
    n ≤ ns.foldl max start := by
  induction ns generalizing start with
  | nil => simpa using h
  | cons m ns ih =>
    rw [List.foldl_cons]
    refine ih _ ?_
    rcases h with hstart | hmem
    · exact .inl (by omega)
    · rcases List.mem_cons.1 hmem with rfl | hmem
      · exact .inl (by omega)
      · exact .inr hmem

/-- The fences of a document are longer than any run of backticks in its files. -/
theorem longestRun_lt_fenceLength {files : List TextFile} {f : TextFile} (hf : f ∈ files) :
    longestRun f.content < fenceLength files := by
  have hmem : longestRun f.content ∈ files.map fun f => longestRun f.content :=
    List.mem_map_of_mem hf
  have := le_foldl_max 0 (.inr hmem)
  rw [fenceLength]
  omega

theorem fenceLength_pos (files : List TextFile) : 0 < fenceLength files := by
  rw [fenceLength]
  omega

/-! ## Reading a block -/

/-- The info string of a path is a part of the path. -/
theorem infoString_subset (path : Text) : infoString path ⊆ path := by
  intro c hc
  have hname : c ∈ lastName path := by
    rw [infoString, Path.extensionOfName?] at hc
    split at hc
    · simp at hc
    · simp at hc
    · exact List.mem_of_mem_drop hc
  have hrev := List.mem_reverse.1 hname
  exact List.mem_reverse.1 ((List.takeWhile_sublist _).subset hrev)

/-- Behind the content of a file the first line that begins with a fence longer than the runs of
backticks in the content is the next one. -/
theorem cutAt?_fence {n : Nat} {content : Text} (hn : longestRun content < n) (rest : Text) :
    Text.cutAt? ('\n' :: List.replicate n backtick)
        (content ++ ('\n' :: List.replicate n backtick) ++ rest) = some (content, rest) := by
  refine Text.cutAt?_append fun u w hcontent hw hpre => ?_
  obtain ⟨c, w, rfl⟩ := List.exists_cons_of_ne_nil hw
  have hrun : List.replicate n backtick <+: w ++ ('\n' :: List.replicate n backtick ++ rest) := by
    simpa using (List.cons_prefix_cons.1 (by simpa using hpre)).2
  -- The run of backticks at this place cannot reach the line feed behind the content.
  have hinside : List.replicate n backtick <+: w := by
    rcases Nat.lt_or_ge w.length n with hshort | hlong
    · have hmem : '\n' ∈ List.replicate n backtick := by
        obtain ⟨v, hv⟩ := hrun
        have hget : (List.replicate n backtick ++ v)[w.length]? = some '\n' := by
          rw [hv]; simp
        rw [List.getElem?_append_left (by simpa using hshort)] at hget
        exact List.mem_of_getElem? hget
      exact absurd (List.eq_of_mem_replicate hmem) (by decide)
    · exact List.prefix_of_prefix_length_le hrun ⟨_, rfl⟩ (by simpa using hlong)
  have hinfix : List.replicate n backtick <:+: content :=
    hinside.isInfix.trans ⟨u ++ [c], [], by simp [hcontent]⟩
  exact absurd (le_longestRun hinfix) (by omega)

/-- The block at the start of a text, and what follows it. -/
def readBlock? (t : Text) : Option (TextFile × Text) := do
  let t ← Text.after? "## File: ".toList t
  let (path, t) ← Text.cutAt? ['\n'] t
  let (opening, t) ← Text.cutAt? ['\n'] t
  let fence ← Text.before? (infoString path) opening
  let (content, t) ← Text.cutAt? ('\n' :: fence) t
  let t ← Text.after? ['\n', '\n'] t
  return (⟨path, content⟩, t)

theorem readBlock?_fileBlock {n : Nat} {f : TextFile} (hpath : '\n' ∉ f.path)
    (hn : longestRun f.content < n) (rest : Text) :
    readBlock? (fileBlock (List.replicate n backtick) f ++ rest) = some (f, rest) := by
  have hopening : '\n' ∉ List.replicate n backtick ++ infoString f.path := by
    intro hmem
    rcases List.mem_append.1 hmem with hfence | hinfo
    · exact absurd (List.eq_of_mem_replicate hfence) (by decide)
    · exact hpath (infoString_subset f.path hinfo)
  have hsplit : fileBlock (List.replicate n backtick) f ++ rest =
      "## File: ".toList ++ (f.path ++ '\n' ::
        ((List.replicate n backtick ++ infoString f.path) ++ '\n' ::
          (f.content ++ ('\n' :: List.replicate n backtick) ++ (['\n', '\n'] ++ rest)))) := by
    unfold fileBlock
    simp only [List.append_assoc, List.cons_append, List.nil_append]
  rw [hsplit, readBlock?]
  simp only [Text.after?_append, Text.cutAt?_singleton hpath, Text.cutAt?_singleton hopening,
    Text.before?_append, cutAt?_fence hn, Option.bind_eq_bind, Option.bind_some, Option.pure_def]

theorem readBlock?_length_lt {t rest : Text} {f : TextFile} (h : readBlock? t = some (f, rest)) :
    rest.length < t.length := by
  simp only [readBlock?, Option.bind_eq_bind, Option.bind_eq_some_iff, Option.pure_def] at h
  obtain ⟨t₁, h₁, ⟨path, t₂⟩, h₂, ⟨opening, t₃⟩, h₃, fence, -, ⟨content, t₄⟩, h₄, t₅, h₅, hpair⟩ :=
    h
  obtain rfl : t₅ = rest := by simpa using congrArg Prod.snd (Option.some.inj hpair)
  have e₁ := Text.after?_eq_some_iff.1 h₁
  have e₂ := (Text.cutAt?_eq_some_iff.1 h₂).1
  have e₃ := (Text.cutAt?_eq_some_iff.1 h₃).1
  have e₄ := (Text.cutAt?_eq_some_iff.1 h₄).1
  have e₅ := Text.after?_eq_some_iff.1 h₅
  subst e₁ e₂ e₃ e₄ e₅
  simp only [List.length_append, List.length_cons, List.length_nil]
  omega

/-! ## Reading a document -/

/-- The blocks at the start of a text, and what follows the last of them. -/
def readBlocks (t : Text) : List TextFile × Text :=
  match _h : readBlock? t with
  | none => ([], t)
  | some (f, rest) =>
    let later := readBlocks rest
    (f :: later.1, later.2)
termination_by t.length
decreasing_by exact readBlock?_length_lt ‹_›

theorem readBlocks_of_none {t : Text} (h : readBlock? t = none) : readBlocks t = ([], t) := by
  rw [readBlocks]
  split <;> simp_all

theorem readBlocks_of_some {t rest : Text} {f : TextFile} (h : readBlock? t = some (f, rest)) :
    readBlocks t = (f :: (readBlocks rest).1, (readBlocks rest).2) := by
  rw [readBlocks]
  split <;> simp_all

/-- Blocks that stand one after the other are read one after the other. -/
theorem readBlocks_flatMap {n : Nat} {files : List TextFile} {rest : Text}
    (hpaths : ∀ f ∈ files, '\n' ∉ f.path) (hn : ∀ f ∈ files, longestRun f.content < n)
    (hrest : readBlock? rest = none) :
    readBlocks (files.flatMap (fileBlock (List.replicate n backtick)) ++ rest) = (files, rest) := by
  induction files with
  | nil => exact readBlocks_of_none hrest
  | cons f files ih =>
    have hblock := readBlock?_fileBlock (hpaths f (by simp)) (hn f (by simp))
      (files.flatMap (fileBlock (List.replicate n backtick)) ++ rest)
    have hlater := ih (fun g hg => hpaths g (by simp [hg])) fun g hg => hn g (by simp [hg])
    rw [List.flatMap_cons, List.append_assoc, readBlocks_of_some hblock, hlater]

/-- The header inside a summary. -/
def headerPart (p : Parts) : Text :=
  whenPresent p.header fun t => "\n## User Provided Header\n\n".toList ++ t ++ ['\n']

/-- The directory listing under its title. -/
def listingPart (p : Parts) : Text :=
  let listingFence : Text := [backtick, backtick, backtick, '\n']
  whenPresent p.listing fun t =>
    "# Directory Structure\n\n".toList ++ listingFence ++ t ++ listingFence ++ ['\n']

/-- What is left of the instruction at the end of a trimmed document. -/
def ending (p : Parts) : Text :=
  whenPresent p.instruction fun t =>
    "# Instruction\n\n".toList ++ Text.trimEnd t ++ ['\n', '\n']

/-- What follows the summary of a document.  The number of files in it is passed over. -/
def afterSummary? (p : Parts) (t : Text) : Option Text :=
  if p.hasSummary then do
    let t ← Text.after? (introduction ++ "\n\n# File Summary\n\n".toList ++ "Files: ".toList) t
    Text.after? (['\n'] ++ headerPart p ++ ['\n']) (t.dropWhile Char.isDigit)
  else some t

/-- The files that a document shows, in their order.  Next to the document only the settings and the
listed paths are known. -/
def read? (s : OutputSettings) (paths emptyDirs : List Text) (document : Text) :
    Option (List TextFile) := do
  let p := parts s [] paths emptyDirs
  -- A document has lost all but one of the line feeds at its end.
  let t ← afterSummary? p (document ++ ['\n'])
  let t ← Text.after? (listingPart p ++ "# Files\n\n".toList) t
  let (files, rest) := readBlocks t
  if rest = ending p then some files else none

/-! ## What trimming leaves of a document -/

/-- What a document shows in front of the title of the files. -/
def frontPart (p : Parts) : Text := (if p.hasSummary then summary p else []) ++ listingPart p

/-- The files under their title. -/
def filesPart (files : List TextFile) : Text :=
  "# Files\n\n".toList ++ files.flatMap (fileBlock (fence files))

theorem body_eq (p : Parts) :
    body p = frontPart p ++ filesPart p.files ++
      whenPresent p.instruction (fun t => "# Instruction\n\n".toList ++ t ++ ['\n']) := by
  unfold body frontPart filesPart listingPart
  simp only [List.append_assoc]

theorem introduction_head : introduction.head? = some 'T' := by cbv

/-- A document begins with a character that is not blank. -/
theorem exists_frontPart_append_filesPart (p : Parts) (files : List TextFile) :
    ∃ c t, frontPart p ++ filesPart files = c :: t ∧ Text.isBlank c = false := by
  obtain ⟨intro', hintro⟩ : ∃ t, introduction = 'T' :: t := by
    cases h : introduction with
    | nil => have := introduction_head; simp [h] at this
    | cons c t => have := introduction_head; simp_all
  unfold frontPart filesPart listingPart
  cases p.hasSummary with
  | true =>
    unfold summary
    rw [hintro]
    exact ⟨'T', _, rfl, by decide⟩
  | false =>
    cases p.listing with
    | some t => exact ⟨'#', _, rfl, by decide⟩
    | none => exact ⟨'#', _, rfl, by decide⟩

/-- The files end in a character that is not blank and two line feeds. -/
theorem exists_filesPart_eq (files : List TextFile) :
    ∃ t c, filesPart files = t ++ [c] ++ ['\n', '\n'] ∧ Text.isBlank c = false := by
  rcases List.eq_nil_or_concat' files with rfl | ⟨before, f, rfl⟩
  · exact ⟨"# File".toList, 's', rfl, by decide⟩
  · obtain ⟨t, ht⟩ : ∃ t, fileBlock (fence (before ++ [f])) f =
        t ++ fence (before ++ [f]) ++ ['\n', '\n'] := by
      unfold fileBlock
      exact ⟨_, rfl⟩
    obtain ⟨n, hn⟩ := Nat.exists_eq_add_one.2 (fenceLength_pos (before ++ [f]))
    have hfence : fence (before ++ [f]) = List.replicate n backtick ++ [backtick] := by
      rw [fence, hn, List.replicate_succ']
    refine ⟨"# Files\n\n".toList ++ before.flatMap (fileBlock (fence (before ++ [f]))) ++ t ++
      List.replicate n backtick, backtick, ?_, by decide⟩
    unfold filesPart
    rw [List.flatMap_append, List.flatMap_singleton, ht, hfence]
    simp only [List.append_assoc]

theorem trim_append {lead t : Text} {c : Char} (h : lead = c :: t) (hc : Text.isBlank c = false)
    (rest : Text) : Text.trim (lead ++ rest) = Text.trimEnd (lead ++ rest) := by
  rw [h, List.cons_append, Text.trim, Text.trimStart_cons hc]

theorem allBlank_of_unlessBlank {t : Option Text} {u : Text} (h : unlessBlank t = some u) :
    Text.allBlank u = false := by
  rw [unlessBlank, Option.filter_eq_some_iff] at h
  simpa using h.2

/-- Trimming takes one of the two line feeds behind the files, or the white space at the end of the
instruction. -/
theorem render_concat {s : OutputSettings} (hs : s.style = .markdown) (files : List TextFile)
    (paths emptyDirs : List Text) :
    render s files paths emptyDirs ++ ['\n'] =
      frontPart (parts s files paths emptyDirs) ++ filesPart files ++
        ending (parts s files paths emptyDirs) := by
  have hbody : Document.body s (parts s files paths emptyDirs) =
      body (parts s files paths emptyDirs) := by
    rw [Document.body, hs]
  have hfiles : (parts s files paths emptyDirs).files = files := rfl
  rw [render, hbody, body_eq, hfiles]
  obtain ⟨c, t, hstart, hc⟩ :=
    exists_frontPart_append_filesPart (parts s files paths emptyDirs) files
  rw [trim_append hstart hc]
  unfold ending
  cases hinstruction : (parts s files paths emptyDirs).instruction with
  | none =>
    obtain ⟨u, d, hend, hd⟩ := exists_filesPart_eq files
    simp only [whenPresent, Option.map_none, Option.getD_none, List.append_nil]
    rw [hend, ← List.append_assoc, Text.trimEnd_append_blank (by decide), ← List.append_assoc,
      Text.trimEnd_concat hd]
    simp only [List.append_assoc, List.cons_append, List.nil_append]
  | some t =>
    have ht : Text.allBlank t = false := allBlank_of_unlessBlank hinstruction
    simp only [whenPresent, Option.map_some, Option.getD_some]
    rw [← List.append_assoc, Text.trimEnd_append_blank (by decide), ← List.append_assoc,
      Text.trimEnd_append ht]
    simp only [List.append_assoc, List.cons_append, List.nil_append]

/-! ## Every document is read -/

theorem dropWhile_numeral (n : Nat) (t : Text) :
    (Text.numeral n ++ t).dropWhile Char.isDigit = t.dropWhile Char.isDigit :=
  List.dropWhile_append_of_pos fun _ hc => Text.isDigit_of_mem_numeral hc

theorem summary_append (p : Parts) (t : Text) :
    summary p ++ t = introduction ++ "\n\n# File Summary\n\n".toList ++ "Files: ".toList ++
      (Text.numeral p.files.length ++ (['\n'] ++ headerPart p ++ ['\n'] ++ t)) := by
  unfold summary fileCountLine headerPart
  simp only [List.append_assoc]

/-- A summary is taken off whatever the number of files in it. -/
theorem afterSummary?_summary (p : Parts) (files : List TextFile) (t : Text) :
    afterSummary? p ((if p.hasSummary then summary { p with files := files } else []) ++ t) =
      some t := by
  unfold afterSummary?
  by_cases h : p.hasSummary = true
  · rw [if_pos h, if_pos h, summary_append]
    simp only [Text.after?_append, Option.bind_eq_bind, Option.bind_some]
    rw [dropWhile_numeral]
    exact Text.after?_append (['\n'] ++ headerPart p ++ ['\n']) t
  · rw [if_neg h, if_neg h, List.nil_append]

/-- What follows the files does not look like a block. -/
theorem readBlock?_ending (p : Parts) : readBlock? (ending p) = none := by
  unfold ending
  cases p.instruction with
  | none => rfl
  | some t => rfl

/-- The reader gives back the files of every markdown document. -/
theorem read?_render {s : OutputSettings} (hs : s.style = .markdown) (paths emptyDirs : List Text)
    {files : List TextFile} (hpaths : ∀ f ∈ files, '\n' ∉ f.path) :
    read? s paths emptyDirs (render s files paths emptyDirs) = some files := by
  have hsummary := afterSummary?_summary (parts s [] paths emptyDirs) files
    (listingPart (parts s [] paths emptyDirs) ++ "# Files\n\n".toList ++
      (files.flatMap (fileBlock (fence files)) ++ ending (parts s [] paths emptyDirs)))
  have hblocks : readBlocks (files.flatMap (fileBlock (fence files)) ++
      ending (parts s [] paths emptyDirs)) = (files, ending (parts s [] paths emptyDirs)) :=
    readBlocks_flatMap hpaths (fun f hf => longestRun_lt_fenceLength hf) (readBlock?_ending _)
  have hdocument : render s files paths emptyDirs ++ ['\n'] =
      (if (parts s [] paths emptyDirs).hasSummary then
        summary { parts s [] paths emptyDirs with files := files } else []) ++
      (listingPart (parts s [] paths emptyDirs) ++ "# Files\n\n".toList ++
        (files.flatMap (fileBlock (fence files)) ++ ending (parts s [] paths emptyDirs))) := by
    rw [render_concat hs]
    unfold frontPart filesPart
    simp only [List.append_assoc]
    rfl
  unfold read?
  rw [hdocument]
  simp only [hsummary, Text.after?_append, hblocks, Option.bind_eq_bind, Option.bind_some, if_true]

/-- A markdown document tells which files it was made of.  The reader recovers them, so no other
files have the same document; and from the start of any content the first line that begins with the
fence is the closing line of that block, so nothing inside a content is taken for the end of its
block, for a heading or for the instruction. -/
theorem files_recovered_from_markdown {s : OutputSettings} (hs : s.style = .markdown)
    (paths emptyDirs : List Text) {files : List TextFile} (hpaths : ∀ f ∈ files, '\n' ∉ f.path) :
    read? s paths emptyDirs (render s files paths emptyDirs) = some files ∧
      (∀ others : List TextFile, (∀ f ∈ others, '\n' ∉ f.path) →
        render s others paths emptyDirs = render s files paths emptyDirs → others = files) ∧
      ∀ f ∈ files, ∀ rest, Text.cutAt? ('\n' :: fence files)
        (f.content ++ ('\n' :: fence files) ++ rest) = some (f.content, rest) := by
  refine ⟨read?_render hs paths emptyDirs hpaths, ?_, ?_⟩
  · intro others hothers hsame
    have hread := read?_render hs paths emptyDirs hothers
    rw [hsame, read?_render hs paths emptyDirs hpaths] at hread
    exact (Option.some.inj hread).symm
  · intro f hf rest
    exact cutAt?_fence (longestRun_lt_fenceLength hf) rest

/-- A content that looks like the end of its block, another block and an instruction. -/
theorem files_recovered_from_nested_markdown :
    let s : OutputSettings := { instructionText := some "Read.".toList }
    let files : List TextFile :=
      [⟨"a.md".toList, "```\n\n## File: b\n````\n\n# Instruction\n".toList⟩, ⟨"b".toList, []⟩]
    s.style = .markdown ∧ (∀ f ∈ files, '\n' ∉ f.path) ∧
      read? s ["a.md".toList, "b".toList] [] (render s files ["a.md".toList, "b".toList] []) =
        some files := by
  refine ⟨rfl, by decide, ?_⟩
  exact (files_recovered_from_markdown rfl ["a.md".toList, "b".toList] [] (by decide)).1

end SourceBundle.Document.Markdown
