import Mathlib.Data.List.Infix
import Mathlib.Data.List.TakeWhile
import SourceBundle.Text.Lines

/-!
# Leads, marks and trimming

What the operations on texts say about the texts as lists.  Taking a lead off a text undoes putting
it in front (`after?_eq_some_iff`), cutting at a mark finds its first occurrence and nothing else
(`cutAt?_eq_some_iff`), and trimming stops at the last character that is not blank
(`trimEnd_concat`).

Two texts that hold no mark, each followed by the mark and a rest, are equal only piece by piece
(`append_cons_inj`); a format whose pieces avoid its marks is read in one way for this reason.
-/

namespace SourceBundle.Text

variable {lead mark t u v rest : Text}

/-! ## Leads -/

theorem after?_eq_some_iff : after? lead t = some rest ↔ t = lead ++ rest := by
  induction lead generalizing t with
  | nil => simp [after?, eq_comm]
  | cons a lead ih =>
    cases t with
    | nil => simp [after?]
    | cons b t =>
      by_cases hab : a = b
      · simp [after?, hab, ih]
      · simp [after?, hab, Ne.symm hab]

@[simp] theorem after?_append (lead rest : Text) : after? lead (lead ++ rest) = some rest :=
  after?_eq_some_iff.2 rfl

theorem startsWith_iff : startsWith lead t = true ↔ lead <+: t := by
  rw [startsWith, Option.isSome_iff_exists]
  simp only [after?_eq_some_iff]
  exact ⟨fun ⟨r, hr⟩ => ⟨r, hr.symm⟩, fun ⟨r, hr⟩ => ⟨r, hr.symm⟩⟩

theorem after?_eq_none_iff : after? lead t = none ↔ ¬ lead <+: t := by
  rw [← startsWith_iff, startsWith]
  cases after? lead t <;> simp

@[simp] theorem before?_append (lead tail : Text) : before? tail (lead ++ tail) = some lead := by
  simp [before?]

theorem before?_eq_some_iff : before? rest t = some lead ↔ t = lead ++ rest := by
  constructor
  · intro h
    obtain ⟨front, hfront, rfl⟩ := Option.map_eq_some_iff.1 h
    have hreverse := congrArg List.reverse (after?_eq_some_iff.1 hfront)
    simpa using hreverse
  · rintro rfl
    exact before?_append lead rest

/-! ## Marks -/

/-- Cutting at a mark finds its first occurrence. -/
theorem cutAt?_eq_some_iff :
    cutAt? mark t = some (u, v) ↔
      t = u ++ mark ++ v ∧ ∀ u' v', t = u' ++ mark ++ v' → u.length ≤ u'.length := by
  induction t generalizing u with
  | nil =>
    cases mark <;> cases u <;> cases v <;> simp [cutAt?]
  | cons c t ih =>
    rw [cutAt?]
    cases hlead : after? mark (c :: t) with
    | some rest =>
      have hrest : c :: t = mark ++ rest := after?_eq_some_iff.1 hlead
      constructor
      · intro h
        obtain ⟨rfl, rfl⟩ : [] = u ∧ rest = v := by simpa using h
        exact ⟨by simpa using hrest, fun _ _ _ => Nat.zero_le _⟩
      · rintro ⟨hsplit, hfirst⟩
        have hu : u = [] := by
          have := hfirst [] rest (by simpa using hrest)
          exact List.eq_nil_of_length_eq_zero (by simpa using this)
        subst hu
        have hv : mark ++ rest = mark ++ v := by rw [← hrest]; simpa using hsplit
        rw [List.append_cancel_left hv]
    | none =>
      have hno : ¬ mark <+: c :: t := after?_eq_none_iff.1 hlead
      cases u with
      | nil =>
        constructor
        · intro h; simp at h
        · rintro ⟨hsplit, -⟩
          exact absurd ⟨v, by simpa using hsplit.symm⟩ hno
      | cons d u =>
        constructor
        · intro h
          obtain ⟨sides, hsides, hpair⟩ := Option.map_eq_some_iff.1 h
          obtain ⟨⟨rfl, rfl⟩, rfl⟩ : (c = d ∧ sides.1 = u) ∧ sides.2 = v := by simpa using hpair
          obtain ⟨hsplit, hfirst⟩ := ih.1 hsides
          refine ⟨by simp [hsplit], ?_⟩
          rintro (_ | ⟨e, u'⟩) v' h'
          · exact absurd ⟨v', by simpa using h'.symm⟩ hno
          · have := hfirst u' v' (by simpa using (List.cons.inj h').2)
            simpa using this
        · rintro ⟨hsplit, hfirst⟩
          obtain ⟨rfl, htail⟩ := List.cons.inj hsplit
          have htail' : cutAt? mark t = some (u, v) := by
            refine ih.2 ⟨by simpa using htail, fun u' v' h' => ?_⟩
            have := hfirst (c :: u') v' (by simp [h'])
            simpa using this
          simp [htail']

/-- A mark is found behind a text that no occurrence of it reaches into. -/
theorem cutAt?_append (hfirst : ∀ u w, t = u ++ w → w ≠ [] → ¬ mark <+: w ++ mark ++ rest) :
    cutAt? mark (t ++ mark ++ rest) = some (t, rest) := by
  refine cutAt?_eq_some_iff.2 ⟨rfl, fun u' v' h => ?_⟩
  by_contra hlt
  have hle : u'.length ≤ t.length := by omega
  -- The earlier occurrence begins inside `t`, so it leaves a nonempty end of `t` in front.
  have hu' : u' <+: t ++ mark ++ rest := ⟨mark ++ v', by rw [h]; simp⟩
  have ht : t <+: t ++ mark ++ rest := ⟨mark ++ rest, by simp⟩
  obtain ⟨w, rfl⟩ := List.prefix_of_prefix_length_le hu' ht hle
  have hw : w ≠ [] := by
    rintro rfl
    simp at hlt
  refine hfirst u' w rfl hw ⟨v', ?_⟩
  have : u' ++ (w ++ mark ++ rest) = u' ++ (mark ++ v') := by simpa using h
  exact (List.append_cancel_left this).symm

/-- The first occurrence of a single character. -/
theorem cutAt?_singleton {c : Char} (hc : c ∉ t) (rest : Text) :
    cutAt? [c] (t ++ c :: rest) = some (t, rest) := by
  have h : cutAt? [c] (t ++ [c] ++ rest) = some (t, rest) := by
    refine cutAt?_append fun u w ht hw hpre => ?_
    obtain ⟨d, w, rfl⟩ := List.exists_cons_of_ne_nil hw
    obtain ⟨_, hd⟩ := hpre
    have hcd : c = d := by simpa using (List.cons.inj hd).1
    exact hc (by simp [ht, hcd])
  simpa using h

theorem beforeLast?_eq_none_iff {c : Char} : beforeLast? c t = none ↔ c ∉ t := by
  induction t with
  | nil => simp [beforeLast?]
  | cons d t ih =>
    rw [beforeLast?]
    cases hlast : beforeLast? c t with
    | some lead =>
      have hmem : c ∈ t := by
        by_contra hnot
        rw [ih.mpr hnot] at hlast
        cases hlast
      simp [hmem]
    | none => simp [ih.mp hlast, eq_comm]

/-- A character of a text has a last occurrence in it. -/
theorem exists_last_append_cons {c : Char} {t : Text} (h : c ∈ t) :
    ∃ u v, t = u ++ c :: v ∧ c ∉ v := by
  obtain ⟨v, u, hsplit, hv⟩ := List.eq_append_cons_of_mem (List.mem_reverse.mpr h)
  refine ⟨u.reverse, v.reverse, ?_, fun hmem => hv (List.mem_reverse.mp hmem)⟩
  rw [← List.reverse_reverse t, hsplit]
  simp

/-- The last occurrence of a character is the one behind which there is no other. -/
theorem beforeLast?_append_cons {c : Char} (hc : c ∉ t) (lead : Text) :
    beforeLast? c (lead ++ c :: t) = some lead := by
  induction lead with
  | nil => rw [List.nil_append, beforeLast?, beforeLast?_eq_none_iff.mpr hc, if_pos rfl]
  | cons d lead ih => rw [List.cons_append, beforeLast?, ih]

/-- Texts without a mark, each followed by it and a rest, are equal only piece by piece. -/
theorem append_cons_inj {c : Char} {t' rest' : Text} (ht : c ∉ t) (ht' : c ∉ t')
    (h : t ++ c :: rest = t' ++ c :: rest') : t = t' ∧ rest = rest' := by
  have hcut := cutAt?_singleton ht rest
  rw [h, cutAt?_singleton ht'] at hcut
  simpa [eq_comm] using hcut

/-! ## Trimming -/

theorem trimStart_cons {c : Char} (hc : isBlank c = false) (t : Text) :
    trimStart (c :: t) = c :: t := by
  simp [trimStart, hc]

/-- White space behind a text is no part of its trimmed form. -/
theorem trimEnd_append_blank {blank : Text} (hblank : allBlank blank = true) (t : Text) :
    trimEnd (t ++ blank) = trimEnd t := by
  have hall : ∀ c ∈ blank.reverse, isBlank c = true := by
    simpa [allBlank] using hblank
  rw [trimEnd, trimEnd, List.reverse_append, List.dropWhile_append_of_pos hall]

/-- Trimming leaves what stands before a text that is not blank. -/
theorem trimEnd_append {t : Text} (ht : allBlank t = false) (lead : Text) :
    trimEnd (lead ++ t) = lead ++ trimEnd t := by
  have hstop : t.reverse.dropWhile isBlank ≠ [] := by
    rw [Ne, List.dropWhile_eq_nil_iff]
    simpa [allBlank] using ht
  rw [trimEnd, trimEnd, List.reverse_append, List.dropWhile_append]
  simp [hstop]

theorem trimEnd_concat {c : Char} (hc : isBlank c = false) (t : Text) :
    trimEnd (t ++ [c]) = t ++ [c] := by
  rw [trimEnd_append (by simp [allBlank, hc])]
  simp [trimEnd, hc]

end SourceBundle.Text
