import SourceBundle.Comments.Strip
import SourceBundle.Proofs.Text.Leads

/-!
# Scanning for comments

How the scanner moves over a text.  Where nothing opens it copies one character (`strip_of_none`);
where a literal or a comment begins it treats the whole span by one fate and goes on behind it
(`strip_of_span`).  The rest of the module says when a place opens nothing (`spanAt?_eq_none`) and
how long literals and comments are, in terms of what they are made of.
-/

namespace SourceBundle.Comments

/-! ## Steps of the scanner -/

@[simp] theorem flatMap_copied (t : Text) : t.flatMap (Fate.apply .copied) = t :=
  List.flatMap_singleton' t

@[simp] theorem flatMap_erased (t : Text) :
    t.flatMap (Fate.apply .erased) = t.filter (· == '\n') := by
  induction t with
  | nil => rfl
  | cons c t ih =>
    by_cases hc : c = '\n'
    · simp [Fate.apply, hc, ih]
    · simp [Fate.apply, hc, ih]

/-- What belongs to the stretch that has been recognised meets its fate. -/
theorem strip_pending_add (s : Syntax) (pending : Nat) (fate : Fate) (isBare : Bool) (u t : Text) :
    strip s (u.length + pending) fate isBare (u ++ t) = u.flatMap fate.apply ++
      strip s pending fate (bareAfter isBare (u.flatMap fate.apply)) t := by
  induction u generalizing isBare with
  | nil => simp [bareAfter]
  | cons c u ih =>
    rw [List.length_cons, Nat.succ_add, List.cons_append, strip, ih, List.flatMap_cons,
      List.append_assoc]
    simp only [bareAfter, List.foldl_append]

/-- The stretch that has been recognised meets its fate as a whole. -/
theorem strip_pending (s : Syntax) (fate : Fate) (isBare : Bool) (u t : Text) :
    strip s u.length fate isBare (u ++ t) = u.flatMap fate.apply ++
      strip s 0 fate (bareAfter isBare (u.flatMap fate.apply)) t :=
  strip_pending_add s 0 fate isBare u t

/-- Where a span begins it meets its fate, and the scanner goes on behind it. -/
theorem strip_of_span {s : Syntax} {fate fate' : Fate} {isBare : Bool} {u t : Text} (hu : u ≠ [])
    (h : spanAt? s isBare (u ++ t) = some (u.length, fate')) :
    strip s 0 fate isBare (u ++ t) = u.flatMap fate'.apply ++
      strip s 0 fate' (bareAfter isBare (u.flatMap fate'.apply)) t := by
  rw [← strip_pending]
  obtain ⟨c, u, rfl⟩ := List.exists_cons_of_ne_nil hu
  rw [List.cons_append, List.length_cons] at *
  simp only [strip, h]

/-- Where no span begins one character is copied. -/
theorem strip_of_none {s : Syntax} {fate : Fate} {isBare : Bool} {c : Char} {t : Text}
    (h : spanAt? s isBare (c :: t) = none) :
    strip s 0 fate isBare (c :: t) = c :: strip s 0 .copied (bareAfter isBare [c]) t := by
  simp only [strip, h]

theorem bareAfter_append (isBare : Bool) (u v : Text) :
    bareAfter isBare (u ++ v) = bareAfter (bareAfter isBare u) v := List.foldl_append

/-- A first line that names an interpreter is kept, and the scanner begins behind it. -/
theorem removeComments_of_lead {s : Syntax} {lead t : Text}
    (h : shebangLength s (lead ++ t) = lead.length) :
    s.removeComments (lead ++ t) =
      Text.trimLineEnds (lead ++ strip s 0 .copied (bareAfter true lead) t) := by
  rw [Syntax.removeComments, h, strip_pending, flatMap_copied]

/-! ## Where spans begin -/

/-- A text begins with a quote or with a mark that opens a comment. -/
def OpensSpan (s : Syntax) (t : Text) : Prop :=
  (∃ quote ∈ s.quotes, quote.delimiter <+: t) ∨ (∃ block ∈ s.blocks, block.1 <+: t) ∨
    ∃ mark ∈ s.lineMarks, mark <+: t

instance (s : Syntax) (t : Text) : Decidable (OpensSpan s t) :=
  inferInstanceAs (Decidable (_ ∨ _))

theorem quoteLength?_eq_none {quote : Quote} {t : Text} (h : ¬ quote.delimiter <+: t) :
    quote.length? t = none := by
  rw [Quote.length?, Text.after?_eq_none_iff.2 h]
  rfl

theorem blockLength?_eq_none {block : Text × Text} {t : Text} (h : ¬ block.1 <+: t) :
    blockLength? block t = none := by
  rw [blockLength?, Text.after?_eq_none_iff.2 h]
  rfl

theorem lineLength?_eq_none {mark t : Text} (h : ¬ mark <+: t) : lineLength? mark t = none := by
  rw [lineLength?, if_neg]
  rwa [Text.startsWith_iff]

/-- All that some element of a list is mapped to is found, if no element is mapped to anything
else. -/
theorem findSome?_of_mem {α β : Type _} {f : α → Option β} {l : List α} {a : α} {b : β}
    (ha : a ∈ l) (hf : f a = some b) (hl : ∀ x ∈ l, f x = none ∨ f x = some b) :
    l.findSome? f = some b := by
  induction l with
  | nil => simp at ha
  | cons x l ih =>
    rw [List.findSome?_cons]
    rcases hl x (by simp) with hx | hx
    · have hne : a ≠ x := by
        rintro rfl
        rw [hx] at hf
        simp at hf
      rw [hx]
      exact ih ((List.mem_cons.1 ha).resolve_left hne) fun y hy => hl y (by simp [hy])
    · rw [hx]

section Spans

variable {s : Syntax} {isBare : Bool} {t : Text}

/-- Literals go before comments. -/
theorem spanAt?_of_literal (hkeeps : s.dropsStatementTexts = false) {quote : Quote} {n : Nat}
    (hquote : quote ∈ s.quotes) (hn : quote.length? t = some n)
    (hothers : ∀ other ∈ s.quotes, other ≠ quote → other.length? t = none) :
    spanAt? s isBare t = some (n, .copied) := by
  have hliteral : (s.quotes.findSome? fun quote => (quote.length? t).map fun n =>
      (n, if s.dropsStatementTexts && quote.isAcrossLines && isBare then Fate.erased
        else .copied)) = some (n, .copied) := by
    refine findSome?_of_mem hquote (by simp [hn, hkeeps]) fun other hother => ?_
    by_cases heq : other = quote
    · exact .inr (by simp [heq, hn, hkeeps])
    · exact .inl (by simp [hothers other hother heq])
  simp only [spanAt?, hliteral]
  rfl

/-- The first quote that opens a closed literal decides. -/
theorem spanAt?_of_first_literal {earlier later : List Quote} {quote : Quote} {n : Nat}
    (hquotes : s.quotes = earlier ++ quote :: later) (hn : quote.length? t = some n)
    (hearlier : ∀ other ∈ earlier, other.length? t = none) :
    spanAt? s isBare t = some (n,
      if s.dropsStatementTexts && quote.isAcrossLines && isBare then .erased else .copied) := by
  have hnone : (earlier.findSome? fun other => (other.length? t).map fun n =>
      (n, if s.dropsStatementTexts && other.isAcrossLines && isBare then Fate.erased
        else .copied)) = none :=
    List.findSome?_eq_none_iff.2 fun other hother => by rw [hearlier other hother]; rfl
  simp only [spanAt?, hquotes, List.findSome?_append, hnone, List.findSome?_cons, hn,
    Option.map_some, Option.none_or]
  rfl

/-- Where no literal begins the span is a comment. -/
theorem spanAt?_of_no_literal (hquotes : ∀ quote ∈ s.quotes, quote.length? t = none) :
    spanAt? s isBare t =
      (s.blocks.findSome? (blockLength? · t) <|> s.lineMarks.findSome? (lineLength? · t)).map
        fun n => (n, Fate.erased) := by
  have hliteral : (s.quotes.findSome? fun quote => (quote.length? t).map fun n =>
      (n, if s.dropsStatementTexts && quote.isAcrossLines && isBare then Fate.erased
        else .copied)) = none :=
    List.findSome?_eq_none_iff.2 fun quote hq => by rw [hquotes quote hq]; rfl
  simp only [spanAt?, hliteral]
  rfl

/-- No span begins where nothing opens one. -/
theorem spanAt?_eq_none (h : ¬ OpensSpan s t) : spanAt? s isBare t = none := by
  have hblocks : s.blocks.findSome? (blockLength? · t) = none :=
    List.findSome?_eq_none_iff.2 fun block hb =>
      blockLength?_eq_none fun hpre => h (.inr (.inl ⟨block, hb, hpre⟩))
  have hmarks : s.lineMarks.findSome? (lineLength? · t) = none :=
    List.findSome?_eq_none_iff.2 fun mark hm =>
      lineLength?_eq_none fun hpre => h (.inr (.inr ⟨mark, hm, hpre⟩))
  have hquotes : ∀ quote ∈ s.quotes, quote.length? t = none := fun quote hq =>
    quoteLength?_eq_none fun hpre => h (.inl ⟨quote, hq, hpre⟩)
  rw [spanAt?_of_no_literal hquotes, hblocks, hmarks]
  rfl

end Spans

/-- Where literals are kept wherever they stand, it does not matter what has been copied. -/
theorem strip_of_keepsTexts (hkeeps : s.dropsStatementTexts = false) (fate : Fate)
    (isBare : Bool) (t : Text) : strip s 0 fate isBare t = strip s 0 .copied true t := by
  have hspan : ∀ isBare u, spanAt? s isBare u = spanAt? s true u := by
    intro isBare u
    simp only [spanAt?, hkeeps, Bool.false_and]
  have hbare : ∀ pending fate isBare, strip s pending fate isBare t = strip s pending fate true t := by
    induction t with
    | nil => exact fun _ _ _ => rfl
    | cons c t ih =>
      intro pending fate isBare
      cases pending with
      | zero =>
        simp only [strip, hspan isBare]
        split
        · rw [ih, ih _ _ (bareAfter true _)]
        · rw [ih, ih _ _ (bareAfter true _)]
      | succ pending =>
        simp only [strip]
        rw [ih, ih _ _ (bareAfter true _)]
  rw [hbare]
  cases t with
  | nil => rfl
  | cons c t => rfl

/-! ## The lengths of spans -/

theorem quoteLength?_eq {quote : Quote} (h : quote ≠ .character) (t : Text) :
    quote.length? t = (Text.after? quote.delimiter t).bind fun inside =>
      (closingLength? quote.delimiter quote.isAcrossLines false inside).map
        (· + quote.delimiter.length) := by
  cases quote with
  | character => exact absurd rfl h
  | inLine delimiter => rfl
  | acrossLines delimiter => rfl

/-- What may stand in a literal that ends at its first closing delimiter: a backslash takes the next
character with it, and no other place in the text is where the delimiter begins. -/
inductive Encloses (quote : Quote) : Text → Prop
  | nil : Encloses quote []
  | escape (c : Char) {t : Text} : Encloses quote t → Encloses quote ('\\' :: c :: t)
  | plain {c : Char} {t : Text} : c ≠ '\\' → (c = '\n' → quote.isAcrossLines = true) →
      ¬ quote.delimiter <+: c :: (t ++ quote.delimiter) → Encloses quote t → Encloses quote (c :: t)

/-- A literal over several lines may have anything in it but backslashes and its delimiter. -/
theorem encloses_of_tails {quote : Quote} (hlines : quote.isAcrossLines = true) {t : Text}
    (hescape : '\\' ∉ t)
    (h : ∀ u ∈ t.tails, u ≠ [] → ¬ quote.delimiter <+: u ++ quote.delimiter) :
    Encloses quote t := by
  induction t with
  | nil => exact .nil
  | cons c t ih =>
    rw [List.tails_cons, List.forall_mem_cons] at h
    exact .plain (List.ne_of_not_mem_cons hescape).symm (fun _ => hlines)
      (h.1 (List.cons_ne_nil c t)) (ih (List.not_mem_of_not_mem_cons hescape) h.2)

/-- A literal ends at the first delimiter that is not escaped. -/
theorem closingLength?_encloses {quote : Quote} {inside : Text} (h : Encloses quote inside)
    {c : Char} {d : Text} (hdelimiter : quote.delimiter = c :: d) (hc : c ≠ '\\') (hn : c ≠ '\n')
    (rest : Text) :
    closingLength? quote.delimiter quote.isAcrossLines false (inside ++ quote.delimiter ++ rest) =
      some (inside.length + quote.delimiter.length) := by
  induction h with
  | nil =>
    have hstarts : Text.startsWith quote.delimiter (quote.delimiter ++ rest) = true :=
      Text.startsWith_iff.2 ⟨rest, rfl⟩
    rw [List.nil_append, hdelimiter] at *
    rw [List.cons_append] at *
    rw [closingLength?]
    simp [hc, hn, hstarts]
  | escape e _ ih =>
    simp only [List.cons_append, closingLength?, ih, if_true, if_false, Bool.false_eq_true,
      Option.map_some, List.length_cons]
    congr 1
    omega
  | @plain e t hescape hline hnone _ ih =>
    have hnot : Text.startsWith quote.delimiter (e :: (t ++ quote.delimiter ++ rest)) = false := by
      rw [← Bool.not_eq_true, Text.startsWith_iff]
      -- A delimiter that begins here would be over before the closing one is.
      exact fun hpre => hnone (List.prefix_of_prefix_length_le hpre ⟨rest, rfl⟩ (by simp; omega))
    have hstays : ¬ (e = '\n' ∧ quote.isAcrossLines = false) := by
      rintro ⟨rfl, hfalse⟩
      rw [hline rfl] at hfalse
      exact absurd hfalse (by decide)
    simp only [List.cons_append] at *
    rw [closingLength?]
    simp only [Bool.false_eq_true, if_false, hescape, hstays, hnot, ih, Option.map_some,
      List.length_cons]
    congr 1
    omega

/-- A closed literal is recognised as a whole. -/
theorem quoteLength?_encloses {quote : Quote} (hcharacter : quote ≠ .character) {inside : Text}
    (h : Encloses quote inside) {c : Char} {d : Text} (hdelimiter : quote.delimiter = c :: d)
    (hc : c ≠ '\\') (hn : c ≠ '\n') (rest : Text) :
    quote.length? (quote.delimiter ++ inside ++ quote.delimiter ++ rest) =
      some (quote.delimiter ++ inside ++ quote.delimiter).length := by
  have hsplit : quote.delimiter ++ inside ++ quote.delimiter ++ rest =
      quote.delimiter ++ (inside ++ quote.delimiter ++ rest) := by
    simp only [List.append_assoc]
  rw [quoteLength?_eq hcharacter, hsplit, Text.after?_append]
  simp only [Option.bind_some, closingLength?_encloses h hdelimiter hc hn rest, Option.map_some,
    List.length_append]
  congr 1
  omega

/-- A block comment ends where its closing mark is first found. -/
theorem blockLength?_closed {block : Text × Text} {words : Text} (hclosed : block.2 <:+ words)
    (hfirst : ∀ u v, words = u ++ block.2 ++ v → v = []) (rest : Text) :
    blockLength? block (block.1 ++ words ++ rest) = some (block.1 ++ words).length := by
  obtain ⟨comment, rfl⟩ := hclosed
  have hcut : Text.cutAt? block.2 (comment ++ block.2 ++ rest) = some (comment, rest) := by
    refine Text.cutAt?_append fun u w hsplit hw hpre => ?_
    -- An earlier closing mark would end before the last one does.
    have hinside : block.2 <+: w ++ block.2 :=
      List.prefix_of_prefix_length_le hpre ⟨rest, rfl⟩ (by simp)
    obtain ⟨v, hv⟩ := hinside
    have hnil : v = [] := hfirst u v (by rw [hsplit, List.append_assoc, List.append_assoc, hv])
    rw [hnil, List.append_nil] at hv
    have hlength := congrArg List.length hv
    rw [List.length_append] at hlength
    exact hw (List.eq_nil_of_length_eq_zero (by omega))
  rw [blockLength?, List.append_assoc, Text.after?_append]
  simp only [Option.map_some, hcut, List.length_append, Nat.add_assoc]

theorem ne_newline_of_not_mem {t : Text} (h : '\n' ∉ t) : ∀ c ∈ t, (c != '\n') = true := by
  intro c hc
  rw [bne_iff_ne]
  rintro rfl
  exact h hc

/-- A comment to the end of a line ends before the next line feed. -/
theorem lineLength?_append {mark words rest : Text} (hmark : '\n' ∉ mark) (hwords : '\n' ∉ words)
    (hrest : rest = [] ∨ rest.head? = some '\n') :
    lineLength? mark (mark ++ words ++ rest) = some (mark ++ words).length := by
  have hstarts : Text.startsWith mark (mark ++ words ++ rest) = true :=
    Text.startsWith_iff.2 ⟨words ++ rest, by simp⟩
  have hall : ∀ c ∈ mark ++ words, (c != '\n') = true :=
    ne_newline_of_not_mem fun hmem => (List.mem_append.1 hmem).elim hmark hwords
  have hstop : rest.takeWhile (· != '\n') = [] := by
    rcases hrest with rfl | hhead
    · rfl
    · obtain ⟨r, rfl⟩ := List.head?_eq_some_iff.1 hhead
      rfl
  rw [lineLength?, if_pos hstarts, List.takeWhile_append_of_pos hall, hstop, List.append_nil]

end SourceBundle.Comments
