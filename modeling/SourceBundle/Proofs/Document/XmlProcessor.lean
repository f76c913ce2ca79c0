import SourceBundle.Proofs.Document.XmlReferences

/-!
# Reading escaped texts with an XML processor

An XML processor first writes every line end as a line feed (`unifyLineEnds`), then turns the tabs
and line feeds of an attribute value into blanks (`blankOut`), and resolves references last
(`resolveFrom`).  It refuses texts that are not well formed.

An escaped attribute value has none of the characters that the first two steps change, so the
processor gets the text (`readValue?_escapedAttribute`).  In the content of an element line ends are
written as they are: the first step goes through the escaping (`unifyLineEnds_escapedText`), and the
processor gets the text with its line ends unified.  That is the text exactly when it has no
carriage return.
-/

namespace SourceBundle.Document.Xml

/-! ## The processor -/

/-- A text with a line feed for each line end: a carriage return with a line feed behind it, and any
other carriage return. -/
def unifyLineEnds : Text → Text
  | [] => []
  | '\r' :: '\n' :: t => '\n' :: unifyLineEnds t
  | c :: t => (if c = '\r' then '\n' else c) :: unifyLineEnds t

/-- A text with a blank for each tab and line feed. -/
def blankOut (t : Text) : Text := t.map fun c => if c = '\t' ∨ c = '\n' then ' ' else c

/-- The value of a digit in bases up to sixteen. -/
def digitValue? (base : Nat) (c : Char) : Option Nat :=
  let value? :=
    if '0' ≤ c ∧ c ≤ '9' then some (c.toNat - '0'.toNat)
    else if 'a' ≤ c ∧ c ≤ 'f' then some (c.toNat - 'a'.toNat + 10)
    else if 'A' ≤ c ∧ c ≤ 'F' then some (c.toNat - 'A'.toNat + 10)
    else none
  value?.filter (· < base)

/-- The number that digits stand for, of which there is at least one. -/
def numberOf? (base : Nat) (digits : Text) : Option Nat :=
  if digits.isEmpty then none
  else digits.foldlM (fun n c => (digitValue? base c).map (n * base + ·)) 0

/-- The character of a code, if there is one that XML can carry. -/
def charOf? (code : Nat) : Option Char :=
  if h : code.isValidChar then (some (Char.ofNatAux code h)).filter fun c => IsChar c else none

/-- The entities that every processor knows, by their names. -/
def knownEntities : List (Text × Char) :=
  [("amp".toList, '&'), ("lt".toList, '<'), ("gt".toList, '>'), ("quot".toList, '"'),
   ("apos".toList, '\'')]

/-- The character that a reference stands for; `name` is what stands between the ampersand and the
semicolon. -/
def referent? (name : Text) : Option Char :=
  match name with
  | '#' :: 'x' :: digits => (numberOf? 16 digits).bind charOf?
  | '#' :: digits => (numberOf? 10 digits).bind charOf?
  | _ => (knownEntities.find? fun entity => entity.1 == name).map Prod.snd

/-- A text with its references resolved.  `pending` is what has been read of a reference.  The text is
refused for a reference that is cut short or stands for nothing, for one of the characters `stops`,
and for a character that XML cannot carry. -/
def resolveFrom (stops : List Char) (pending : Option Text) : Text → Option Text
  | [] => if pending.isSome then none else some []
  | c :: t =>
    match pending with
    | some name =>
      if c = ';' then (referent? name).bind fun d => (resolveFrom stops none t).map (d :: ·)
      else resolveFrom stops (some (name ++ [c])) t
    | none =>
      if c = '&' then resolveFrom stops (some []) t
      else if c ∈ stops ∨ ¬ IsChar c then none
      else (resolveFrom stops none t).map (c :: ·)

/-- What a processor gets from the content of an element, if it is well formed. -/
def readContent? (t : Text) : Option Text :=
  if Text.mentions "]]>".toList t then none else resolveFrom ['<'] none (unifyLineEnds t)

/-- What a processor gets from an attribute value between double quotes, if it is well formed. -/
def readValue? (t : Text) : Option Text :=
  resolveFrom ['<', '"'] none (blankOut (unifyLineEnds t))

/-! ## References -/

/-- A reference is read up to its semicolon. -/
theorem resolveFrom_append {stops : List Char} {rest : Text} (hrest : ';' ∉ rest) (name t : Text) :
    resolveFrom stops (some name) (rest ++ ';' :: t) =
      (referent? (name ++ rest)).bind fun d => (resolveFrom stops none t).map (d :: ·) := by
  induction rest generalizing name with
  | nil => rw [List.nil_append, resolveFrom, if_pos rfl, List.append_nil]
  | cons c rest ih =>
    have hc : c ≠ ';' := fun h => hrest (h ▸ List.mem_cons_self)
    have hmore : ';' ∉ rest := fun h => hrest (List.mem_cons_of_mem _ h)
    rw [List.cons_append, resolveFrom]
    simp only [if_neg hc]
    rw [ih hmore, List.append_assoc, List.singleton_append]

/-- Every reference that the escapers write is one that a processor knows. -/
theorem resolveFrom_reference {r : Text × Char} (hr : r ∈ valueReferences) (stops : List Char)
    (t : Text) : resolveFrom stops none (r.1 ++ t) = (resolveFrom stops none t).map (r.2 :: ·) := by
  have hknown : ∀ r ∈ valueReferences,
      r.1 = '&' :: (r.1.tail.dropLast ++ [';']) ∧ ';' ∉ r.1.tail.dropLast ∧
        referent? r.1.tail.dropLast = some r.2 := by
    decide
  obtain ⟨hform, hname, hreferent⟩ := hknown r hr
  rw [hform, List.cons_append, resolveFrom]
  simp only [if_true]
  rw [List.append_assoc, List.singleton_append, resolveFrom_append hname, List.nil_append,
    hreferent, Option.bind_some]

theorem resolveFrom_cons {stops : List Char} {c : Char} (hamp : c ≠ '&') (hstop : c ∉ stops)
    (hchar : IsChar c) (t : Text) :
    resolveFrom stops none (c :: t) = (resolveFrom stops none t).map (c :: ·) := by
  have hgood : ¬ (c ∈ stops ∨ ¬ IsChar c) := not_or.mpr ⟨hstop, not_not.mpr hchar⟩
  rw [resolveFrom]
  simp only [if_neg hamp, if_neg hgood]

/-- What an escaper writes of a text that XML can carry is resolved to the text. -/
theorem Escapes.resolveFrom_flatMap {references : List (Text × Char)} {marks stops : List Char}
    {escape : Char → Text} (h : Escapes references marks escape) (hstops : stops ⊆ marks) {t : Text}
    (ht : AllChars t) : resolveFrom stops none (t.flatMap escape) = some t := by
  induction t with
  | nil => rfl
  | cons c t ih =>
    obtain ⟨hc, hrest⟩ := List.forall_mem_cons.mp ht
    have hcarried : carried c = c := by rw [carried_eq, if_pos hc]
    rw [List.flatMap_cons]
    rcases h.escape_cases c with ⟨r, hr, hescape, hstands⟩ | ⟨hescape, hamp, hmarks⟩
    · rw [hescape, resolveFrom_reference (h.known hr), ih hrest, Option.map_some, hstands, hcarried]
    · rw [hcarried] at hescape hamp hmarks
      rw [hescape, List.singleton_append,
        resolveFrom_cons hamp (fun hmem => hmarks (hstops hmem)) hc, ih hrest, Option.map_some]

/-! ## Line ends and blanks -/

theorem unifyLineEnds_cons {c : Char} (hc : c ≠ '\r') (t : Text) :
    unifyLineEnds (c :: t) = c :: unifyLineEnds t := by
  rw [unifyLineEnds, if_neg hc]
  rintro - rfl
  exact absurd rfl hc

theorem unifyLineEnds_append {lead : Text} (h : '\r' ∉ lead) (t : Text) :
    unifyLineEnds (lead ++ t) = lead ++ unifyLineEnds t := by
  induction lead with
  | nil => rfl
  | cons c lead ih =>
    have hc : c ≠ '\r' := fun hc => h (hc ▸ List.mem_cons_self)
    rw [List.cons_append, unifyLineEnds_cons hc, ih fun hmem => h (List.mem_cons_of_mem _ hmem),
      List.cons_append]

theorem return_not_mem_unifyLineEnds (t : Text) : '\r' ∉ unifyLineEnds t := by
  fun_induction unifyLineEnds t with
  | case1 => exact List.not_mem_nil
  | case2 t ih => exact List.not_mem_cons_of_ne_of_not_mem (by decide) ih
  | case3 c t _ ih =>
    refine List.not_mem_cons_of_ne_of_not_mem ?_ ih
    split
    · decide
    · rename_i hc
      exact fun h => hc h.symm

/-- Unifying line ends changes exactly the texts with a carriage return. -/
theorem unifyLineEnds_eq_self_iff {t : Text} : unifyLineEnds t = t ↔ '\r' ∉ t := by
  constructor
  · intro h
    rw [← h]
    exact return_not_mem_unifyLineEnds t
  · intro h
    have hall := unifyLineEnds_append h []
    rwa [List.append_nil, unifyLineEnds, List.append_nil] at hall

theorem AllChars.unifyLineEnds {t : Text} (h : AllChars t) : AllChars (unifyLineEnds t) := by
  fun_induction Xml.unifyLineEnds t with
  | case1 => exact h
  | case2 t ih =>
    obtain ⟨-, hn, hrest⟩ := (List.forall_mem_cons.mp h).imp_right List.forall_mem_cons.mp
    exact List.forall_mem_cons.mpr ⟨hn, ih hrest⟩
  | case3 c t _ ih =>
    obtain ⟨hc, hrest⟩ := List.forall_mem_cons.mp h
    refine List.forall_mem_cons.mpr ⟨?_, ih hrest⟩
    split
    · decide
    · exact hc

theorem escapedTextChar_ne_nil (c : Char) : escapedTextChar c ≠ [] := by
  rcases escapes_content.escape_cases c with ⟨r, hr, hescape, -⟩ | ⟨hescape, -⟩
  · obtain ⟨w, hw, -⟩ := exists_reference_eq (escapes_content.known hr)
    rw [hescape, hw]
    exact List.cons_ne_nil _ _
  · rw [hescape]
    exact List.cons_ne_nil _ _

/-- No tab, line feed or carriage return is written in an escaped attribute value. -/
theorem not_mem_escapedAttribute {c : Char} (hc : c ∈ ['\n', '\r', '\t']) (t : Text) :
    c ∉ escapedAttribute t := by
  have hmarks : c ∈ ['<', '>', '"', '\n', '\r', '\t'] := List.mem_append_right ['<', '>', '"'] hc
  have hreferences : ∀ c ∈ ['\n', '\r', '\t'], ∀ r ∈ valueReferences, c ∉ r.1 := by
    simp only [List.forall_mem_cons, List.not_mem_nil, false_implies, implies_true, and_true]
    decide
  exact escapes_value.not_mem_flatMap hmarks (hreferences c hc) t

/-- The content of an element has a carriage return or a line feed only where the text has it. -/
theorem not_mem_escapedTextChar {c mark : Char} (hmark : mark ∈ ['\n', '\r']) (hc : c ≠ mark) :
    mark ∉ escapedTextChar c := by
  have hapart : ∀ mark ∈ ['\n', '\r'], mark ≠ '\uFFFD' ∧ ∀ r ∈ contentReferences, mark ∉ r.1 := by
    simp only [List.forall_mem_cons, List.not_mem_nil, false_implies, implies_true, and_true]
    decide
  obtain ⟨hcarried, hreferences⟩ := hapart mark hmark
  rcases escapes_content.escape_cases c with ⟨r, hr, hescape, -⟩ | ⟨hescape, -⟩
  · rw [hescape]
    exact hreferences r hr
  · rw [hescape, List.mem_singleton]
    exact (carried_ne hc hcarried).symm

/-- In the content of an element line ends are unified as in the text. -/
theorem unifyLineEnds_escapedText (t : Text) :
    unifyLineEnds (escapedText t) = escapedText (unifyLineEnds t) := by
  have hfeed : escapedTextChar '\n' = ['\n'] := by decide
  have hreturn : escapedTextChar '\r' = ['\r'] := by decide
  unfold escapedText
  fun_induction unifyLineEnds t with
  | case1 => rfl
  | case2 t ih =>
    rw [List.flatMap_cons, List.flatMap_cons, List.flatMap_cons, hreturn, hfeed, ← ih]
    rfl
  | case3 c t hpair ih =>
    rw [List.flatMap_cons, List.flatMap_cons, ← ih]
    split
    · -- A carriage return without a line feed behind it has none behind it in the content either.
      rename_i hc
      subst hc
      rw [hreturn, hfeed, List.singleton_append, List.singleton_append, unifyLineEnds, if_pos rfl]
      rintro u - hfront
      cases t with
      | nil => cases hfront
      | cons d t =>
        have hd : d ≠ '\n' := fun hd => hpair t rfl (hd ▸ rfl)
        have hno := not_mem_escapedTextChar (by decide) hd
        rw [List.flatMap_cons] at hfront
        cases hwritten : escapedTextChar d with
        | nil => exact escapedTextChar_ne_nil d hwritten
        | cons e w =>
          rw [hwritten] at hfront hno
          exact hno (by rw [(List.cons.inj hfront).1]; exact List.mem_cons_self)
    · rename_i hc
      exact unifyLineEnds_append (not_mem_escapedTextChar (by decide) hc) _

/-! ## Escaped texts are read -/

theorem blankOut_eq_self {t : Text} (htab : '\t' ∉ t) (hfeed : '\n' ∉ t) : blankOut t = t := by
  have hkept : ∀ c ∈ t, (if c = '\t' ∨ c = '\n' then ' ' else c) = id c := by
    intro c hc
    refine if_neg ?_
    rintro (rfl | rfl)
    · exact htab hc
    · exact hfeed hc
  rw [blankOut, List.map_congr_left hkept, List.map_id]

theorem readValue?_escapedAttribute {t : Text} (h : AllChars t) :
    readValue? (escapedAttribute t) = some t := by
  have hlines : unifyLineEnds (escapedAttribute t) = escapedAttribute t :=
    unifyLineEnds_eq_self_iff.mpr (not_mem_escapedAttribute (by decide) t)
  have hblanks : blankOut (escapedAttribute t) = escapedAttribute t :=
    blankOut_eq_self (not_mem_escapedAttribute (by decide) t)
      (not_mem_escapedAttribute (by decide) t)
  rw [readValue?, hlines, hblanks]
  exact escapes_value.resolveFrom_flatMap (by decide) h

theorem readContent?_escapedText {t : Text} (h : AllChars t) :
    readContent? (escapedText t) = some (unifyLineEnds t) := by
  have hend : ¬ Text.mentions "]]>".toList (escapedText t) := by
    intro hmentions
    obtain ⟨⟨u, v⟩, hcut⟩ := Option.isSome_iff_exists.mp hmentions
    refine (isContent_escapedText t).no_closing ?_
    rw [(Text.cutAt?_eq_some_iff.mp hcut).1]
    simp
  rw [readContent?, if_neg hend, unifyLineEnds_escapedText]
  exact escapes_content.resolveFrom_flatMap (by decide) h.unifyLineEnds

/-- **Attribute values survive an XML processor, and contents do but for their carriage returns.**
From an escaped attribute value a processor gets the text.  From an escaped content it gets the text
with its line ends unified, and this is the text exactly when it has no carriage return. -/
theorem read_escaped_iff {t : Text} (h : AllChars t) :
    readValue? (escapedAttribute t) = some t ∧
      readContent? (escapedText t) = some (unifyLineEnds t) ∧
      (readContent? (escapedText t) = some t ↔ '\r' ∉ t) := by
  have hcontent := readContent?_escapedText h
  refine ⟨readValue?_escapedAttribute h, hcontent, ?_⟩
  rw [hcontent, Option.some_inj]
  exact unifyLineEnds_eq_self_iff

/-- Both ends of lines that carriage returns take part in, next to marks and to what looks like
references. -/
theorem read_escaped_mixedLineEnds :
    let mixed : Text := "a\r\n\tb\r\r\n\"<]]>&amp;&#13;'".toList
    let plain : Text := "a\n\tb\n\n\"<]]>&amp;&#13;'".toList
    AllChars mixed ∧ AllChars plain ∧
      readValue? (escapedAttribute mixed) = some mixed ∧
      readContent? (escapedText mixed) = some plain ∧
      readContent? (escapedText plain) = some plain := by
  intro mixed plain
  have hmixed : AllChars mixed := by decide
  have hplain : AllChars plain := by decide
  obtain ⟨hvalue, hcontent, -⟩ := read_escaped_iff hmixed
  exact ⟨hmixed, hplain, hvalue, hcontent.trans (by decide),
    (read_escaped_iff hplain).2.2.mpr (by decide)⟩

/-- A carriage return does not survive in the content of an element. -/
theorem not_readContent?_return :
    ¬ ∀ t, AllChars t →
      readContent? (escapedText t) = some t ∧ readValue? (escapedAttribute t) = some t := by
  intro hall
  have hread := (hall ['\r'] (by decide)).1
  rw [readContent?_escapedText (by decide)] at hread
  exact absurd hread (by decide)

end SourceBundle.Document.Xml
