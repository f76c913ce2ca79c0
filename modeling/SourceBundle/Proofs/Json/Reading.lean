import SourceBundle.Json.Reading
import SourceBundle.Proofs.Json.Number
import SourceBundle.Proofs.Json.Spelling
import SourceBundle.Proofs.Results

/-!
# Scalars are read back

White space before a value is skipped.  A scalar is read back from its text: a string character by
character, each from the escape that it was written as (`escapedChar_cases`), and a numeral up to
the first character that is no part of a number.  What may follow a value in a text (`Closes`) is
none.
-/

namespace SourceBundle.Json

open Reading

/-! ## White space -/

theorem skipSpace_append {gap : Text} (h : IsGap gap) (t : Text) :
    skipSpace (gap ++ t) = skipSpace t := by
  rw [skipSpace, List.dropWhile_append_of_pos]
  · rfl
  · intro c hc
    rcases h c hc with rfl | rfl | rfl | rfl <;> rfl

/-- The text ends, or goes on with a character that no value goes on with. -/
def Closes (t : Text) : Prop := ∀ c ∈ t.head?, c ∈ [' ', '\n', '\t', '\r', ',', ']', '\x7d']

theorem closes_nil : Closes [] := fun c hc => by cases hc

theorem closes_cons {c : Char} (h : c ∈ [' ', '\n', '\t', '\r', ',', ']', '\x7d']) (t : Text) :
    Closes (c :: t) := by
  rintro d hd
  cases hd
  exact h

theorem closes_append {gap t : Text} (hgap : IsGap gap) (h : Closes t) : Closes (gap ++ t) := by
  cases gap with
  | nil => exact h
  | cons c gap =>
    refine closes_cons ?_ _
    rcases hgap c List.mem_cons_self with rfl | rfl | rfl | rfl <;> simp

/-! ## Strings -/

theorem hexValue?_digitChar (d : Nat) (h : d < 16) : hexValue? (Nat.digitChar d) = some d := by
  revert d
  decide

theorem hasFourBytes_cons (a b c d : Char) (t : Text) : hasFourBytes (a :: b :: c :: d :: t) := by
  have ha := a.utf8Size_pos
  have hb := b.utf8Size_pos
  have hc := c.utf8Size_pos
  have hd := d.utf8Size_pos
  simp only [hasFourBytes, Text.byteSize, List.take_succ_cons, List.take_zero, List.map_cons,
    List.map_nil, List.foldl_cons, List.foldl_nil, decide_eq_true_eq]
  omega

/-- A character is written as an escape of one letter, as an escape of four digits, or as itself. -/
theorem escapedChar_cases (c : Char) :
    (∃ letter, escapedChar c = ['\\', letter] ∧ escapeMeaning? letter = some c) ∨
      (c.toNat < 0x20 ∧ escapedChar c =
        ['\\', 'u', '0', '0', Nat.digitChar (c.toNat / 16), Nat.digitChar (c.toNat % 16)]) ∨
      (c ≠ '"' ∧ c ≠ '\\' ∧ 0x20 ≤ c.toNat ∧ escapedChar c = [c]) := by
  have hback : ∀ {n : Nat}, c.toNat = n → Char.ofNat n = c := by
    rintro n rfl
    exact Char.ofNat_toNat c
  unfold escapedChar
  by_cases hquote : c = '"'
  · subst hquote
    exact .inl ⟨'"', rfl, rfl⟩
  by_cases hslash : c = '\\'
  · subst hslash
    exact .inl ⟨'\\', rfl, rfl⟩
  by_cases hback' : c.toNat = 0x08
  · exact .inl ⟨'b', by simp [hquote, hslash, hback'], by rw [← hback hback']; rfl⟩
  by_cases hfeed : c.toNat = 0x0C
  · exact .inl ⟨'f', by simp [hquote, hslash, hfeed], by rw [← hback hfeed]; rfl⟩
  by_cases hline : c = '\n'
  · subst hline
    exact .inl ⟨'n', rfl, rfl⟩
  by_cases hreturn : c = '\r'
  · subst hreturn
    exact .inl ⟨'r', rfl, rfl⟩
  by_cases htab : c = '\t'
  · subst htab
    exact .inl ⟨'t', rfl, rfl⟩
  by_cases hcontrol : c.toNat < 0x20
  · exact .inr (.inl ⟨hcontrol, by
      simp only [hquote, hslash, hback', hfeed, hline, hreturn, htab, hcontrol, if_false, if_true]⟩)
  · exact .inr (.inr ⟨hquote, hslash, Nat.le_of_not_lt hcontrol, by
      simp only [hquote, hslash, hback', hfeed, hline, hreturn, htab, hcontrol, if_false]⟩)

/-- A code of four digits is read as the control character that it was written for. -/
theorem stringFrom_code (read : Text) {c : Char} (h : c.toNat < 0x20) (t : Text) :
    stringFrom read (.code none 4 0)
        ('0' :: '0' :: Nat.digitChar (c.toNat / 16) :: Nat.digitChar (c.toNat % 16) :: t) =
      stringFrom (c :: read) .plain t := by
  have hhigh : hexValue? (Nat.digitChar (c.toNat / 16)) = some (c.toNat / 16) :=
    hexValue?_digitChar _ (by omega)
  have hlow : hexValue? (Nat.digitChar (c.toNat % 16)) = some (c.toNat % 16) :=
    hexValue?_digitChar _ (by omega)
  have hvalue : 16 * (16 * (16 * (16 * 0 + 0) + 0) + c.toNat / 16) + c.toNat % 16 = c.toNat := by
    omega
  have hmeaning : codeMeaning none c.toNat = some (.inl c) := by
    have htrails : ¬ (0xDC00 ≤ c.toNat ∧ c.toNat ≤ 0xDFFF) := by omega
    have hleads : ¬ (0xD800 ≤ c.toNat ∧ c.toNat ≤ 0xDBFF) := by omega
    simp only [codeMeaning, htrails, hleads, if_false, Char.ofNat_toNat]
  have hzero : hexValue? '0' = some 0 := rfl
  simp only [stringFrom, hzero, hhigh, hlow, Nat.reduceSub, Nat.reduceLT, if_true, if_false]
  rw [hvalue, hmeaning]

/-- A character that was written between quotes is read back. -/
theorem stringFrom_escapedChar (read : Text) (c : Char) (t : Text) :
    stringFrom read .plain (escapedChar c ++ t) = stringFrom (c :: read) .plain t := by
  rcases escapedChar_cases c with ⟨letter, htext, hletter⟩ | ⟨hcontrol, htext⟩ |
    ⟨hquote, hslash, hplain, htext⟩
  · rw [htext]
    simp [stringFrom, hletter]
  · rw [htext, ← stringFrom_code read hcontrol]
    have hfour := hasFourBytes_cons '0' '0' (Nat.digitChar (c.toNat / 16))
      (Nat.digitChar (c.toNat % 16)) t
    have hletter : escapeMeaning? 'u' = none := rfl
    simp [stringFrom, hletter, hfour]
  · rw [htext]
    have hcontrol : ¬ c.toNat < 0x20 := Nat.not_lt.mpr hplain
    simp [stringFrom, hquote, hslash, hcontrol]

theorem stringFrom_flatMap (read t rest : Text) :
    stringFrom read .plain (t.flatMap escapedChar ++ '"' :: rest) =
      .ok (read.reverse ++ t, rest) := by
  induction t generalizing read with
  | nil => simp [stringFrom]
  | cons c t ih =>
    rw [List.flatMap_cons, List.append_assoc, stringFrom_escapedChar, ih, List.reverse_cons,
      List.append_assoc, List.singleton_append]

theorem item_quote (t rest : Text) : item (quote t ++ rest) = .ok (.text t, rest) := by
  have hread := stringFrom_flatMap [] t rest
  have htext : quote t ++ rest = '"' :: (t.flatMap escapedChar ++ '"' :: rest) := by simp [quote]
  rw [htext]
  change (stringFrom [] .plain (t.flatMap escapedChar ++ '"' :: rest)).map _ = _
  rw [hread]
  rfl

theorem key_quote (t rest : Text) : key (quote t ++ rest) = .ok (t, rest) := by
  have htext : quote t ++ rest = '"' :: (t.flatMap escapedChar ++ '"' :: rest) := by simp [quote]
  rw [htext]
  exact stringFrom_flatMap [] t rest

/-! ## Numbers -/

/-- What ends a value neither is a digit nor goes on with a number. -/
theorem Closes.head {t : Text} (h : Closes t) {c : Char} (hc : t.head? = some c) :
    Number.isDigit c = false ∧ c ≠ '.' ∧ c ≠ 'e' ∧ c ≠ 'E' := by
  have hclosers : ∀ c ∈ [' ', '\n', '\t', '\r', ',', ']', '\x7d'],
      Number.isDigit c = false ∧ c ≠ '.' ∧ c ≠ 'e' ∧ c ≠ 'E' := by simp [Number.isDigit]
  exact hclosers c (h c hc)

theorem someDigits_numeral (n : Nat) {rest : Text} (h : Closes rest) :
    someDigits (Text.numeral n ++ rest) = .ok (Text.numeral n, rest) := by
  have hdigits : ∀ c ∈ Text.numeral n, Number.isDigit c :=
    fun c hc => Number.isDigit_of_mem_numeral hc
  have htake : (Text.numeral n ++ rest).takeWhile Number.isDigit = Text.numeral n := by
    rw [List.takeWhile_append_of_pos hdigits]
    cases rest with
    | nil => simp
    | cons c rest => simp [(h.head rfl).1]
  have hdrop : (Text.numeral n ++ rest).dropWhile Number.isDigit = rest := by
    rw [List.dropWhile_append_of_pos hdigits]
    cases rest with
    | nil => rfl
    | cons c rest => simp [(h.head rfl).1]
  cases htext : Text.numeral n with
  | nil => exact absurd htext (Text.numeral_ne_nil n)
  | cons c digits =>
    have hc : Number.isDigit c := hdigits c (htext ▸ List.mem_cons_self)
    rw [htext] at htake hdrop
    rw [List.cons_append] at htake hdrop ⊢
    rw [someDigits, if_pos hc, htake, hdrop]

theorem fraction_of_closes {t : Text} (h : Closes t) : fraction t = .ok (none, t) := by
  cases t with
  | nil => rfl
  | cons c t =>
    have hpoint := (h.head rfl).2.1
    unfold fraction
    split
    · rename_i heq
      cases heq
      exact absurd rfl hpoint
    · rfl

theorem exponent_of_closes {t : Text} (h : Closes t) : exponent t = .ok (none, t) := by
  cases t with
  | nil => rfl
  | cons c t =>
    obtain ⟨-, -, hsmall, hlarge⟩ := h.head rfl
    simp [exponent, hsmall, hlarge]

theorem numberAfterSign_numeral {n : Nat} (hn : n < Number.significandBound) {rest : Text}
    (h : Closes rest) :
    numberAfterSign false (Text.numeral n ++ rest) = .ok (.whole n, rest) := by
  have hzero : ¬ ((Text.numeral n).head? = some '0' ∧ 1 < (Text.numeral n).length) := by
    rintro ⟨hhead, hlength⟩
    obtain rfl := Number.eq_zero_of_head?_numeral hhead
    cases Nat.lt_irrefl 1 hlength
  have hnumber : numberFrom false (Text.numeral n) rest = .ok (.whole n, rest) := by
    simp [numberFrom, fraction_of_closes h, exponent_of_closes h, Number.ofParts?_numeral hn,
      Except.bind]
  simp only [numberAfterSign, someDigits_numeral n h, Except.bind]
  rw [if_neg (by simpa using hzero), hnumber]

/-! ## Values -/

theorem item_append {gap : Text} (h : IsGap gap) (t : Text) : item (gap ++ t) = item t := by
  rw [item, item, skipSpace_append h]

/-- A digit begins a number. -/
theorem item_digit {c : Char} (hc : Number.isDigit c) (t : Text) :
    item (c :: t) = (numberAfterSign false (c :: t)).map fun (n, t) => (.number n, t) := by
  have hothers : ∀ d ∈ [' ', '\n', '\t', '\r', 'n', 't', 'f', '"', '[', '\x7b', '-'],
      Number.isDigit d = false := by simp [Number.isDigit]
  have hne : ∀ d ∈ [' ', '\n', '\t', '\r', 'n', 't', 'f', '"', '[', '\x7b', '-'], c ≠ d := by
    rintro d hd rfl
    rw [hothers c hd] at hc
    cases hc
  simp only [List.forall_mem_cons, List.not_mem_nil, false_implies, implies_true, and_true] at hne
  have hskip : skipSpace (c :: t) = c :: t := by simp [skipSpace, hne]
  simp only [item, hskip, hne, hc, if_true, if_false]

theorem item_numeral {n : Nat} (hn : n < Number.significandBound) {rest : Text} (h : Closes rest) :
    item (Text.numeral n ++ rest) = .ok (.number (.whole n), rest) := by
  have hnumber := numberAfterSign_numeral hn h
  cases htext : Text.numeral n with
  | nil => exact absurd htext (Text.numeral_ne_nil n)
  | cons c digits =>
    have hc : Number.isDigit c := Number.isDigit_of_mem_numeral (htext ▸ List.mem_cons_self)
    rw [htext, List.cons_append] at hnumber
    rw [List.cons_append, item_digit hc, hnumber]
    rfl

theorem item_boolText (b : Bool) (rest : Text) :
    item (boolText b ++ rest) = .ok (.flag b, rest) := by
  cases b <;> rfl

theorem item_null (rest : Text) : item ("null".toList ++ rest) = .ok (.null, rest) := rfl

end SourceBundle.Json
