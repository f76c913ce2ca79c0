import SourceBundle.Document.Xml
import SourceBundle.Proofs.Text.Leads

/-!
# Characters and references of strict XML

What an XML processor knows of the texts in a strict document: which characters may stand in it
(`IsChar`), what may stand between tags and between quotes (`IsContent`, `IsValue`), and what the
references stand for (`resolve`).

Both escapers write a character as a reference to it or as itself, replaced if XML cannot carry it,
and then it is none of the marks that end a text or open a reference (`Escapes`).  From this alone
it follows that what they write is well formed (`Escapes.ampersandsRefer`,
`Escapes.not_mem_flatMap`) and that resolving its references gives back the text
(`Escapes.resolve_flatMap`).
-/

namespace SourceBundle.Document.Xml

/-! ## Characters -/

/-- The production `Char` of XML 1.0. -/
def IsChar (c : Char) : Prop :=
  c = '\t' ∨ c = '\n' ∨ c = '\r' ∨ (0x20 ≤ c.toNat ∧ c.toNat ≤ 0xD7FF) ∨
    (0xE000 ≤ c.toNat ∧ c.toNat ≤ 0xFFFD) ∨ (0x10000 ≤ c.toNat ∧ c.toNat ≤ 0x10FFFF)

instance (c : Char) : Decidable (IsChar c) :=
  inferInstanceAs (Decidable (_ ∨ _))

/-- The text holds no character that XML cannot carry. -/
def AllChars (t : Text) : Prop := ∀ c ∈ t, IsChar c

-- Character by character, and not over all characters there are.
instance (t : Text) : Decidable (AllChars t) := List.decidableBAll IsChar t

/-- A text with U+FFFD in place of the characters that XML cannot carry. -/
def carriedText (t : Text) : Text := t.map fun c => if IsChar c then c else '\uFFFD'

theorem toNat_le (c : Char) : c.toNat ≤ 0x10FFFF := by
  have := c.valid
  rw [Char.toNat]
  rcases this with h | h
  · have : c.val.toNat < 0xD800 := h
    omega
  · have : c.val.toNat < 0x110000 := h.2
    omega

theorem isXmlChar_iff (c : Char) : isXmlChar c = true ↔ IsChar c := by
  have hle := toNat_le c
  have heq : ∀ d : Char, c = d ↔ c.toNat = d.toNat := fun d =>
    ⟨fun h => by rw [h], fun h => Char.ext (UInt32.toNat_inj.1 h)⟩
  simp only [isXmlChar, IsChar, heq, Bool.or_eq_true, Bool.and_eq_true, beq_iff_eq,
    decide_eq_true_eq]
  have ht : '\t'.toNat = 9 := rfl
  have hn : '\n'.toNat = 10 := rfl
  have hr : '\r'.toNat = 13 := rfl
  omega

theorem carried_eq (c : Char) : carried c = if IsChar c then c else '\uFFFD' := by
  rw [carried]
  by_cases h : IsChar c
  · rw [if_pos h, if_pos ((isXmlChar_iff c).2 h)]
  · rw [if_neg h, if_neg fun hx => h ((isXmlChar_iff c).1 hx)]
    rfl

theorem isChar_carried (c : Char) : IsChar (carried c) := by
  rw [carried_eq]
  split
  · assumption
  · decide

/-- The replacement is no mark, so a mark is carried only for itself. -/
theorem carried_ne {c mark : Char} (hc : c ≠ mark) (hmark : mark ≠ '\uFFFD') :
    carried c ≠ mark := by
  rw [carried_eq]
  split
  · exact hc
  · exact hmark.symm

/-! ## References -/

/-- The references in contents and what they stand for. -/
def contentReferences : List (Text × Char) :=
  [("&amp;".toList, '&'), ("&lt;".toList, '<'), ("&gt;".toList, '>')]

/-- The references in attribute values and what they stand for. -/
def valueReferences : List (Text × Char) :=
  contentReferences ++ [("&quot;".toList, '"'), ("&apos;".toList, '\''), ("&#10;".toList, '\n'),
    ("&#13;".toList, '\r'), ("&#9;".toList, '\t')]

/-- Each ampersand of a text stands at the start of one of the references. -/
def AmpersandsRefer (references : List (Text × Char)) (t : Text) : Prop :=
  ∀ v, '&' :: v <:+ t → ∃ r ∈ references, r.1 <+: '&' :: v

/-- What may stand between tags. -/
structure IsContent (t : Text) : Prop where
  no_opening : '<' ∉ t
  no_closing : '>' ∉ t
  ampersands : AmpersandsRefer contentReferences t

/-- What may stand between the quotes of an attribute. -/
structure IsValue (t : Text) : Prop where
  no_opening : '<' ∉ t
  no_closing : '>' ∉ t
  no_quote : '"' ∉ t
  ampersands : AmpersandsRefer valueReferences t

/-- The character that the reference at the start of a text stands for, and the length of the
reference. -/
def reference? (t : Text) : Option (Char × Nat) :=
  valueReferences.findSome? fun r => if Text.startsWith r.1 t then some (r.2, r.1.length) else none

/-- A text with its references resolved, but for its first `skipped` characters, which belong to a
reference that has been resolved. -/
def resolveAfter (skipped : Nat) : Text → Text
  | [] => []
  | c :: t =>
    match skipped with
    | skipped + 1 => resolveAfter skipped t
    | 0 =>
      match reference? (c :: t) with
      | some (d, length) => d :: resolveAfter (length - 1) t
      | none => c :: resolveAfter 0 t

/-- A text with its references resolved. -/
def resolve (t : Text) : Text := resolveAfter 0 t

theorem resolveAfter_append (lead t : Text) :
    resolveAfter lead.length (lead ++ t) = resolve t := by
  induction lead with
  | nil => rfl
  | cons c lead ih => exact ih

theorem reference?_append {r : Text × Char} (hr : r ∈ valueReferences) (t : Text) :
    reference? (r.1 ++ t) = some (r.2, r.1.length) := by
  simp only [valueReferences, contentReferences, List.cons_append, List.nil_append,
    List.mem_cons, List.not_mem_nil, or_false] at hr
  rcases hr with rfl | rfl | rfl | rfl | rfl | rfl | rfl | rfl <;> rfl

/-- A reference is an ampersand and characters that are neither ampersands nor marks. -/
theorem exists_reference_eq {r : Text × Char} (hr : r ∈ valueReferences) :
    ∃ w, r.1 = '&' :: w ∧ '&' ∉ w ∧ '<' ∉ r.1 ∧ '>' ∉ r.1 ∧ '"' ∉ r.1 ∧ AllChars r.1 := by
  have h : r.1.head? = some '&' ∧ '&' ∉ r.1.tail ∧ '<' ∉ r.1 ∧ '>' ∉ r.1 ∧ '"' ∉ r.1 ∧
      AllChars r.1 := by
    revert r
    decide
  obtain ⟨hhead, htail, hmarks⟩ := h
  obtain ⟨w, hw⟩ := List.head?_eq_some_iff.1 hhead
  exact ⟨w, hw, by simpa [hw] using htail, hmarks⟩

theorem reference?_eq_none {c : Char} (hc : c ≠ '&') (t : Text) : reference? (c :: t) = none := by
  rw [reference?, List.findSome?_eq_none_iff]
  intro r hr
  obtain ⟨w, hw, -⟩ := exists_reference_eq hr
  rw [if_neg]
  rw [Text.startsWith_iff, hw, List.cons_prefix_cons]
  exact fun h => hc h.1.symm

/-- A reference is resolved to the character that it stands for. -/
theorem resolve_reference {r : Text × Char} (hr : r ∈ valueReferences) (t : Text) :
    resolve (r.1 ++ t) = r.2 :: resolve t := by
  have href := reference?_append hr t
  obtain ⟨w, hw, -⟩ := exists_reference_eq hr
  rw [hw, List.cons_append] at href ⊢
  rw [resolve, resolveAfter, href]
  simp only [List.length_cons, Nat.add_sub_cancel, resolveAfter_append]

theorem resolve_cons {c : Char} (hc : c ≠ '&') (t : Text) : resolve (c :: t) = c :: resolve t := by
  rw [resolve, resolveAfter, reference?_eq_none hc]
  rfl

theorem AmpersandsRefer.cons {references : List (Text × Char)} {c : Char} {t : Text} (hc : c ≠ '&')
    (h : AmpersandsRefer references t) : AmpersandsRefer references (c :: t) := by
  intro v hv
  rcases List.suffix_cons_iff.1 hv with heq | hsuffix
  · exact absurd (List.cons.inj heq).1.symm hc
  · exact h v hsuffix

theorem AmpersandsRefer.append {references : List (Text × Char)} {lead t : Text}
    (hlead : '&' ∉ lead) (h : AmpersandsRefer references t) :
    AmpersandsRefer references (lead ++ t) := by
  induction lead with
  | nil => exact h
  | cons c lead ih =>
    have hc : c ≠ '&' := fun h => hlead (by simp [h])
    exact (ih fun h => hlead (List.mem_cons_of_mem _ h)).cons hc

/-! ## Escapers -/

/-- An escaper writes a character as a reference that stands for it, or as the character that takes
its place, which is then neither an ampersand nor a mark. -/
structure Escapes (references : List (Text × Char)) (marks : List Char) (escape : Char → Text) :
    Prop where
  known : references ⊆ valueReferences
  escape_cases : ∀ c, (∃ r ∈ references, escape c = r.1 ∧ r.2 = carried c) ∨
    (escape c = [carried c] ∧ carried c ≠ '&' ∧ carried c ∉ marks)

namespace Escapes

variable {references : List (Text × Char)} {marks : List Char} {escape : Char → Text}

theorem resolve_flatMap (h : Escapes references marks escape) (t : Text) :
    resolve (t.flatMap escape) = carriedText t := by
  induction t with
  | nil => rfl
  | cons c t ih =>
    rw [List.flatMap_cons, carriedText, List.map_cons, ← carried_eq]
    rcases h.escape_cases c with ⟨r, hr, hescape, hcarried⟩ | ⟨hescape, hamp, -⟩
    · rw [hescape, resolve_reference (h.known hr), ih, hcarried, carriedText]
    · rw [hescape, List.singleton_append, resolve_cons hamp, ih, carriedText]

theorem ampersandsRefer (h : Escapes references marks escape) (t : Text) :
    AmpersandsRefer references (t.flatMap escape) := by
  induction t with
  | nil => intro v hv; simp at hv
  | cons c t ih =>
    rw [List.flatMap_cons]
    rcases h.escape_cases c with ⟨r, hr, hescape, -⟩ | ⟨hescape, hamp, -⟩
    · obtain ⟨w, hw, hno, -⟩ := exists_reference_eq (h.known hr)
      intro v hv
      rw [hescape, hw, List.cons_append] at hv
      -- The ampersand is the one at the start of the reference, or stands behind it.
      rcases List.suffix_cons_iff.1 hv with heq | hsuffix
      · refine ⟨r, hr, t.flatMap escape, ?_⟩
        rw [hw, List.cons_append, heq]
      · exact ih.append hno v hsuffix
    · rw [hescape, List.singleton_append]
      exact ih.cons hamp

theorem not_mem_flatMap (h : Escapes references marks escape) {mark : Char} (hmark : mark ∈ marks)
    (hreferences : ∀ r ∈ references, mark ∉ r.1) (t : Text) : mark ∉ t.flatMap escape := by
  rw [List.mem_flatMap]
  rintro ⟨c, -, hc⟩
  rcases h.escape_cases c with ⟨r, hr, hescape, -⟩ | ⟨hescape, -, hmarks⟩
  · exact hreferences r hr (hescape ▸ hc)
  · rw [hescape, List.mem_singleton] at hc
    exact hmarks (hc ▸ hmark)

theorem isChar_of_mem (h : Escapes references marks escape) {t : Text} {c : Char}
    (hc : c ∈ t.flatMap escape) : IsChar c := by
  obtain ⟨d, -, hd⟩ := List.mem_flatMap.1 hc
  rcases h.escape_cases d with ⟨r, hr, hescape, -⟩ | ⟨hescape, -⟩
  · obtain ⟨w, -, -, -, -, -, hchars⟩ := exists_reference_eq (h.known hr)
    exact hchars c (hescape ▸ hd)
  · rw [hescape, List.mem_singleton] at hd
    rw [hd]
    exact isChar_carried d

end Escapes

theorem escapes_content : Escapes contentReferences ['<', '>'] escapedTextChar where
  known := List.subset_append_left _ _
  escape_cases c := by
    unfold escapedTextChar
    split
    · next h => subst h; exact .inl ⟨("&amp;".toList, '&'), by decide, rfl, by decide⟩
    split
    · next h => subst h; exact .inl ⟨("&lt;".toList, '<'), by decide, rfl, by decide⟩
    split
    · next h => subst h; exact .inl ⟨("&gt;".toList, '>'), by decide, rfl, by decide⟩
    next hamp hopening hclosing =>
    refine .inr ⟨rfl, carried_ne hamp (by decide), ?_⟩
    simp [carried_ne hopening (by decide), carried_ne hclosing (by decide)]

theorem escapes_value :
    Escapes valueReferences ['<', '>', '"', '\n', '\r', '\t'] escapedAttributeChar where
  known := List.Subset.refl _
  escape_cases c := by
    unfold escapedAttributeChar
    split
    · next h => subst h; exact .inl ⟨("&quot;".toList, '"'), by decide, rfl, by decide⟩
    split
    · next h => subst h; exact .inl ⟨("&apos;".toList, '\''), by decide, rfl, by decide⟩
    split
    · next h => subst h; exact .inl ⟨("&#10;".toList, '\n'), by decide, rfl, by decide⟩
    split
    · next h => subst h; exact .inl ⟨("&#13;".toList, '\r'), by decide, rfl, by decide⟩
    split
    · next h => subst h; exact .inl ⟨("&#9;".toList, '\t'), by decide, rfl, by decide⟩
    next hquote _ hfeed hreturn htab =>
    rcases escapes_content.escape_cases c with ⟨r, hr, hescape⟩ | ⟨hescape, hamp, hmarks⟩
    · exact .inl ⟨r, List.mem_append_left _ hr, hescape⟩
    · refine .inr ⟨hescape, hamp, fun hmem => ?_⟩
      rcases List.mem_append.1
        (show carried c ∈ ['<', '>'] ++ ['"', '\n', '\r', '\t'] from hmem) with hm | hm
      · exact hmarks hm
      · simp [carried_ne hquote (by decide), carried_ne hfeed (by decide),
          carried_ne hreturn (by decide), carried_ne htab (by decide)] at hm

theorem isContent_escapedText (t : Text) : IsContent (escapedText t) where
  no_opening := escapes_content.not_mem_flatMap (by decide) (by decide) t
  no_closing := escapes_content.not_mem_flatMap (by decide) (by decide) t
  ampersands := escapes_content.ampersandsRefer t

theorem isValue_escapedAttribute (t : Text) : IsValue (escapedAttribute t) where
  no_opening := escapes_value.not_mem_flatMap (by decide) (by decide) t
  no_closing := escapes_value.not_mem_flatMap (by decide) (by decide) t
  no_quote := escapes_value.not_mem_flatMap (by decide) (by decide) t
  ampersands := escapes_value.ampersandsRefer t

/-- An escaped content stands for its text, as far as XML can carry it. -/
theorem resolve_escapedText (t : Text) : resolve (escapedText t) = carriedText t :=
  escapes_content.resolve_flatMap t

/-- An escaped attribute value stands for its text, as far as XML can carry it. -/
theorem resolve_escapedAttribute (t : Text) : resolve (escapedAttribute t) = carriedText t :=
  escapes_value.resolve_flatMap t

end SourceBundle.Document.Xml
