import SourceBundle.Document.Basic
import SourceBundle.Proofs.Document.XmlReferences

/-!
# The grammar of strict XML documents

A `Tree` holds the raw texts of a strict document: what stands between its tags and quotes, with
the references unresolved.  A document is parsed by writing a well-formed tree (`Tree.Parses`).

The grammar is unambiguous.  A raw text holds no `<`, so it ends at the next tag, and each optional
element begins with a tag that what follows it does not begin with; so two well-formed trees with
one text are equal part by part (`Tree.write_injective`).  Together with what the escapers write
this gives the main statement: a strict document has one parse, and its references resolve to what
the document was made of (`strict_document_parsed`).
-/

namespace SourceBundle.Document.Xml

/-! ## Trees -/

/-- The raw texts of a strict document; a file is the value of its path and its content. -/
structure Tree where
  header : Option Text
  listing : Option Text
  files : List (Text × Text)
  instruction : Option Text

/-- An element with a raw content. -/
def rawElement (name : String) (content : Text) : Text := openTag name ++ content ++ closeTag name

/-- An element that may be missing. -/
def optionalElement (name : String) (content : Option Text) : Text :=
  whenPresent content (rawElement name)

/-- The element of a file. -/
def fileElement (f : Text × Text) : Text := fileTag f.1 ++ f.2 ++ closeTag "file"

/-- The text of a tree. -/
def Tree.write (tree : Tree) : Text :=
  openTag "codecrawl" ++ (optionalElement "user_provided_header" tree.header ++
    (optionalElement "directory_structure" tree.listing ++ (openTag "files" ++ (filesIntroduction ++
      (tree.files.flatMap fileElement ++ (closeTag "files" ++
        (optionalElement "instruction" tree.instruction ++ closeTag "codecrawl")))))))

/-- All raw texts of a tree may stand where they stand. -/
structure Tree.WellFormed (tree : Tree) : Prop where
  header : ∀ t ∈ tree.header, IsContent t
  listing : ∀ t ∈ tree.listing, IsContent t
  files : ∀ f ∈ tree.files, IsValue f.1 ∧ IsContent f.2
  instruction : ∀ t ∈ tree.instruction, IsContent t

/-- A well-formed tree is a parse of the document that is its text on a line. -/
structure Tree.Parses (tree : Tree) (document : Text) : Prop where
  wellFormed : tree.WellFormed
  text : tree.write ++ ['\n'] = document

/-! ## The grammar is unambiguous -/

/-- A raw content ends at the tag that closes its element. -/
theorem rawElement_append_inj {name : String} {t t' rest rest' : Text} (ht : IsContent t)
    (ht' : IsContent t') (h : rawElement name t ++ rest = rawElement name t' ++ rest') :
    t = t' ∧ rest = rest' := by
  unfold rawElement at h
  simp only [closeTag, List.append_assoc, List.cons_append] at h
  have hcontent := List.append_cancel_left h
  obtain ⟨htext, htail⟩ := Text.append_cons_inj ht.no_opening ht'.no_opening hcontent
  exact ⟨htext, by simpa using htail⟩

/-- An element that may be missing is told by its tag, if what follows does not begin with it. -/
theorem optionalElement_append_inj {name : String} {part part' : Option Text} {rest rest' : Text}
    (hpart : ∀ t ∈ part, IsContent t) (hpart' : ∀ t ∈ part', IsContent t)
    (hrest : ¬ openTag name <+: rest) (hrest' : ¬ openTag name <+: rest')
    (h : optionalElement name part ++ rest = optionalElement name part' ++ rest') :
    part = part' ∧ rest = rest' := by
  have hopen : ∀ t u : Text, openTag name <+: rawElement name t ++ u := fun t u =>
    ⟨t ++ closeTag name ++ u, by simp [rawElement]⟩
  cases part with
  | none =>
    cases part' with
    | none => exact ⟨rfl, h⟩
    | some t' =>
      have h' : rest = rawElement name t' ++ rest' := h
      exact absurd (h' ▸ hopen t' rest') hrest
  | some t =>
    cases part' with
    | none =>
      have h' : rawElement name t ++ rest = rest' := h
      exact absurd (h' ▸ hopen t rest) hrest'
    | some t' =>
      obtain ⟨rfl, htail⟩ := rawElement_append_inj (hpart t rfl) (hpart' t' rfl) h
      exact ⟨rfl, htail⟩

/-- Tags whose names differ in their first character. -/
theorem openTag_not_isPrefix {name other : String} {c d : Char} {n o : Text}
    (hname : name.toList = c :: n) (hother : other.toList = d :: o) (hcd : c ≠ d) (rest : Text) :
    ¬ openTag name <+: openTag other ++ rest := by
  intro h
  simp only [openTag, hname, hother, List.cons_append, List.cons_prefix_cons] at h
  exact hcd h.2.1

theorem fileElement_append_inj {f f' : Text × Text} {rest rest' : Text} (hf : IsValue f.1)
    (hf' : IsValue f'.1) (hc : IsContent f.2) (hc' : IsContent f'.2)
    (h : fileElement f ++ rest = fileElement f' ++ rest') : f = f' ∧ rest = rest' := by
  unfold fileElement fileTag at h
  simp only [closeTag, List.append_assoc, List.cons_append, List.nil_append] at h
  have hvalue := List.append_cancel_left h
  obtain ⟨hpath, hbehind⟩ := Text.append_cons_inj hf.no_quote hf'.no_quote hvalue
  obtain ⟨hcontent, htail⟩ :=
    Text.append_cons_inj hc.no_opening hc'.no_opening (List.cons.inj hbehind).2
  exact ⟨Prod.ext hpath hcontent, by simpa using htail⟩

/-- The files end where the tag is found that closes their element. -/
theorem files_append_inj {files files' : List (Text × Text)} {rest rest' : Text}
    (hfiles : ∀ f ∈ files, IsValue f.1 ∧ IsContent f.2)
    (hfiles' : ∀ f ∈ files', IsValue f.1 ∧ IsContent f.2)
    (h : files.flatMap fileElement ++ (closeTag "files" ++ rest) =
      files'.flatMap fileElement ++ (closeTag "files" ++ rest')) :
    files = files' ∧ rest = rest' := by
  -- A file begins with `<f`, the closing tag with `</`.
  have hdiffer : ∀ (f : Text × Text) (u v : Text), fileElement f ++ u ≠ closeTag "files" ++ v := by
    intro f u v heq
    have hsecond := congrArg (fun t => t[1]?) heq
    unfold fileElement fileTag closeTag at hsecond
    exact absurd hsecond (by simp)
  induction files generalizing files' with
  | nil =>
    cases files' with
    | nil => exact ⟨rfl, List.append_cancel_left h⟩
    | cons f' files' =>
      rw [List.flatMap_nil, List.nil_append, List.flatMap_cons, List.append_assoc] at h
      exact absurd h.symm (hdiffer f' _ _)
  | cons f files ih =>
    cases files' with
    | nil =>
      rw [List.flatMap_nil, List.nil_append, List.flatMap_cons, List.append_assoc] at h
      exact absurd h (hdiffer f _ _)
    | cons f' files' =>
      rw [List.flatMap_cons, List.flatMap_cons, List.append_assoc, List.append_assoc] at h
      have hf := hfiles f (by simp)
      have hf' := hfiles' f' (by simp)
      obtain ⟨rfl, hlater⟩ := fileElement_append_inj hf.1 hf'.1 hf.2 hf'.2 h
      obtain ⟨rfl, hrest⟩ := ih (fun g hg => hfiles g (by simp [hg]))
        (fun g hg => hfiles' g (by simp [hg])) hlater
      exact ⟨rfl, hrest⟩

/-- What follows the header does not begin with its tag. -/
theorem headerTag_not_isPrefix (listing : Option Text) (rest : Text) :
    ¬ openTag "user_provided_header" <+:
      optionalElement "directory_structure" listing ++ (openTag "files" ++ rest) := by
  cases listing with
  | none => exact openTag_not_isPrefix (c := 'u') (d := 'f') rfl rfl (by decide) rest
  | some t =>
    have hsplit : optionalElement "directory_structure" (some t) ++ (openTag "files" ++ rest) =
        openTag "directory_structure" ++
          (t ++ closeTag "directory_structure" ++ (openTag "files" ++ rest)) := by
      show rawElement _ t ++ _ = _
      simp only [rawElement, List.append_assoc]
    rw [hsplit]
    exact openTag_not_isPrefix (c := 'u') (d := 'd') rfl rfl (by decide) _

/-- Two well-formed trees with one text are one tree. -/
theorem Tree.write_injective {tree tree' : Tree} (h : tree.WellFormed) (h' : tree'.WellFormed)
    (hwrite : tree.write = tree'.write) : tree = tree' := by
  obtain ⟨header, listing, files, instruction⟩ := tree
  obtain ⟨header', listing', files', instruction'⟩ := tree'
  unfold Tree.write at hwrite
  obtain ⟨rfl, hlisting⟩ := optionalElement_append_inj h.header h'.header
    (headerTag_not_isPrefix _ _) (headerTag_not_isPrefix _ _) (List.append_cancel_left hwrite)
  have hnext : ∀ rest, ¬ openTag "directory_structure" <+: openTag "files" ++ rest :=
    openTag_not_isPrefix (c := 'd') (d := 'f') rfl rfl (by decide)
  obtain ⟨rfl, hfiles⟩ := optionalElement_append_inj h.listing h'.listing (hnext _) (hnext _)
    hlisting
  obtain ⟨rfl, hinstruction⟩ := files_append_inj h.files h'.files
    (List.append_cancel_left (List.append_cancel_left hfiles))
  obtain ⟨rfl, -⟩ := optionalElement_append_inj h.instruction h'.instruction (by decide)
    (by decide) hinstruction
  rfl

theorem Tree.Parses.unique {tree tree' : Tree} {document : Text} (h : tree.Parses document)
    (h' : tree'.Parses document) : tree = tree' :=
  Tree.write_injective h.wellFormed h'.wellFormed
    (List.append_cancel_right (h.text.trans h'.text.symm))

/-! ## The characters of a document -/

theorem AllChars.append {t u : Text} (ht : AllChars t) (hu : AllChars u) : AllChars (t ++ u) :=
  fun c hc => (List.mem_append.1 hc).elim (ht c) (hu c)

theorem allChars_openTag {name : String} (h : AllChars name.toList) : AllChars (openTag name) := by
  have hopen : AllChars ['<'] := by decide
  have hclose : AllChars ['>'] := by decide
  exact (hopen.append h).append hclose

theorem allChars_closeTag {name : String} (h : AllChars name.toList) :
    AllChars (closeTag name) := by
  have hopen : AllChars ['<', '/'] := by decide
  have hclose : AllChars ['>'] := by decide
  exact (hopen.append h).append hclose

theorem allChars_optionalElement {name : String} (hname : AllChars name.toList)
    {content : Option Text} (h : ∀ t ∈ content, AllChars t) :
    AllChars (optionalElement name content) := by
  cases content with
  | none => exact fun c hc => absurd hc (List.not_mem_nil)
  | some t => exact ((allChars_openTag hname).append (h t rfl)).append (allChars_closeTag hname)

theorem allChars_fileElement {f : Text × Text} (hpath : AllChars f.1) (hcontent : AllChars f.2) :
    AllChars (fileElement f) := by
  have hlead : AllChars "<file path=\"".toList := by decide
  have htag : AllChars (fileTag f.1) := (hlead.append hpath).append (by decide)
  exact (htag.append hcontent).append (allChars_closeTag (by decide))

theorem allChars_filesIntroduction : AllChars filesIntroduction := by
  decide +kernel

/-- A tree of texts that XML can carry is written in characters that XML can carry. -/
theorem Tree.allChars_write {tree : Tree} (hheader : ∀ t ∈ tree.header, AllChars t)
    (hlisting : ∀ t ∈ tree.listing, AllChars t)
    (hfiles : ∀ f ∈ tree.files, AllChars f.1 ∧ AllChars f.2)
    (hinstruction : ∀ t ∈ tree.instruction, AllChars t) : AllChars tree.write := by
  have hblocks : AllChars (tree.files.flatMap fileElement) := by
    intro c hc
    obtain ⟨f, hf, hcf⟩ := List.mem_flatMap.1 hc
    exact allChars_fileElement (hfiles f hf).1 (hfiles f hf).2 c hcf
  refine (allChars_openTag (by decide)).append ?_
  refine (allChars_optionalElement (by decide) hheader).append ?_
  refine (allChars_optionalElement (by decide) hlisting).append ?_
  refine (allChars_openTag (by decide)).append ?_
  refine allChars_filesIntroduction.append ?_
  refine hblocks.append ?_
  refine (allChars_closeTag (by decide)).append ?_
  exact (allChars_optionalElement (by decide) hinstruction).append (allChars_closeTag (by decide))

/-! ## The parse of a document -/

/-- The raw texts of the strict document of the given parts. -/
def treeOf (p : Parts) : Tree where
  header := p.header.map escapedText
  listing := p.listing.map escapedText
  files := p.files.map fun f => (escapedAttribute f.path, escapedText f.content)
  instruction := p.instruction.map escapedText

theorem optionalElement_map (name : String) (content : Option Text) :
    optionalElement name (content.map escapedText) = whenPresent content (element name) := by
  cases content <;> rfl

theorem write_treeOf (p : Parts) : (treeOf p).write = strictBody p := by
  have hfiles : (p.files.map fun f => (escapedAttribute f.path, escapedText f.content)).flatMap
      fileElement = p.files.flatMap strictFile := by
    rw [List.flatMap_map]
    rfl
  unfold Tree.write treeOf strictBody
  simp only [optionalElement_map, hfiles, List.append_assoc]

theorem isContent_of_mem_map {content : Option Text} :
    ∀ t ∈ content.map escapedText, IsContent t := by
  intro t ht
  obtain ⟨u, -, rfl⟩ := Option.map_eq_some_iff.1 ht
  exact isContent_escapedText u

theorem wellFormed_treeOf (p : Parts) : (treeOf p).WellFormed where
  header := isContent_of_mem_map
  listing := isContent_of_mem_map
  files := by
    intro f hf
    obtain ⟨g, -, rfl⟩ := List.mem_map.1 hf
    exact ⟨isValue_escapedAttribute g.path, isContent_escapedText g.content⟩
  instruction := isContent_of_mem_map

theorem allChars_of_mem_map {content : Option Text} :
    ∀ t ∈ content.map escapedText, AllChars t := by
  intro t ht
  obtain ⟨u, -, rfl⟩ := Option.map_eq_some_iff.1 ht
  exact fun c hc => escapes_content.isChar_of_mem hc

theorem allChars_strictBody (p : Parts) : AllChars (strictBody p) := by
  rw [← write_treeOf]
  refine Tree.allChars_write allChars_of_mem_map allChars_of_mem_map ?_ allChars_of_mem_map
  intro f hf
  obtain ⟨g, -, rfl⟩ := List.mem_map.1 hf
  exact ⟨fun c hc => escapes_value.isChar_of_mem hc, fun c hc => escapes_content.isChar_of_mem hc⟩

/-- A strict document begins and ends with a tag, so trimming leaves it as it is. -/
theorem trim_strictBody (p : Parts) : Text.trim (strictBody p) = strictBody p := by
  obtain ⟨t, ht⟩ : ∃ t, strictBody p = '<' :: t := by
    unfold strictBody openTag
    exact ⟨_, rfl⟩
  obtain ⟨u, hu⟩ : ∃ u, strictBody p = u ++ closeTag "codecrawl" := by
    unfold strictBody
    exact ⟨_, rfl⟩
  have hclose : closeTag "codecrawl" = "</codecrawl".toList ++ ['>'] := rfl
  rw [Text.trim, ht, Text.trimStart_cons (by decide), ← ht, hu, hclose, ← List.append_assoc,
    Text.trimEnd_concat (by decide)]

/-- A strict document holds no character that XML cannot carry and has one parse.  The references in
the parse resolve to the parts of the document, in which U+FFFD takes the place of what XML cannot
carry: the path and the content of each file in their order, and the header, the listing and the
instruction where they are shown. -/
theorem strict_document_parsed {s : OutputSettings} (hs : s.style = .xml)
    (hstrict : s.parsableStyle = true) (files : List TextFile) (paths emptyDirs : List Text) :
    (∀ c ∈ render s files paths emptyDirs, IsChar c) ∧
      ∃ tree : Tree, tree.Parses (render s files paths emptyDirs) ∧
        (∀ other : Tree, other.Parses (render s files paths emptyDirs) → other = tree) ∧
        tree.header.map resolve =
          (if s.fileSummary then unlessBlank s.headerText else none).map carriedText ∧
        tree.listing.map resolve =
          (if s.directoryStructure then some (listing s paths emptyDirs) else none).map
            carriedText ∧
        tree.files.map (fun f => (resolve f.1, resolve f.2)) =
          files.map (fun f => (carriedText f.path, carriedText f.content)) ∧
        tree.instruction.map resolve = (unlessBlank s.instructionText).map carriedText := by
  have hdocument : render s files paths emptyDirs =
      strictBody (parts s files paths emptyDirs) ++ ['\n'] := by
    rw [render, Document.body, hs, hstrict, trim_strictBody]
  have hresolved : ∀ content : Option Text,
      (content.map escapedText).map resolve = content.map carriedText := by
    intro content
    rw [Option.map_map]
    exact congrArg (fun f => content.map f) (funext resolve_escapedText)
  have hparses : (treeOf (parts s files paths emptyDirs)).Parses
      (render s files paths emptyDirs) := by
    refine ⟨wellFormed_treeOf _, ?_⟩
    rw [write_treeOf, hdocument]
  refine ⟨?_, treeOf (parts s files paths emptyDirs), hparses, fun other h => h.unique hparses,
    hresolved _, hresolved _, ?_, hresolved _⟩
  · rw [hdocument]
    exact (allChars_strictBody _).append (by decide)
  · show (files.map fun f => (escapedAttribute f.path, escapedText f.content)).map _ = _
    rw [List.map_map]
    refine List.map_congr_left fun f _ => ?_
    exact Prod.ext (resolve_escapedAttribute f.path) (resolve_escapedText f.content)

/-- A path and a content full of markup, references and a character that XML cannot carry. -/
theorem strict_document_of_markup_parsed :
    let s : OutputSettings :=
      { style := .xml, parsableStyle := true, headerText := some "<a&b>".toList }
    let files : List TextFile :=
      [⟨"\"&lt;\n".toList, "</file>&amp;]]>".toList ++ [Char.ofNat 0]⟩]
    s.style = .xml ∧ s.parsableStyle = true ∧
      ∃ tree : Tree, tree.Parses (render s files [] []) ∧
        tree.files.map (fun f => (resolve f.1, resolve f.2)) =
          [("\"&lt;\n".toList, "</file>&amp;]]>".toList ++ ['\uFFFD'])] := by
  intro s files
  obtain ⟨-, tree, hparses, -, -, -, hfiles, -⟩ :=
    strict_document_parsed (s := s) rfl rfl files [] []
  exact ⟨rfl, rfl, tree, hparses, hfiles⟩

end SourceBundle.Document.Xml
