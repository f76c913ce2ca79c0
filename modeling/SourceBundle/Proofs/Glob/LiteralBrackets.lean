import SourceBundle.Glob.Table
import SourceBundle.Proofs.Glob.Matching
import SourceBundle.Proofs.Glob.PatternSets

/-!
# Literal brackets

A pattern text whose brackets are put into classes of their own is read as if brackets were ordinary
characters (`ofText_escapeBrackets`).  What this means is told without classes: the rules for stars
are the only ones that the text can break (`KeepsStarRules`), and the paths that it stands for are
given by a relation between texts and paths in which a bracket is a character like any other
(`StandsFor`).

The text is read from left to right, and of what has been read only the last character counts, since
two stars have to open a component.  Behind a bracket that character is another one than before,
namely the end of a class, but neither opens a component (`StarsFit.congr`).
-/

namespace SourceBundle.Glob

variable {c : Char} {prev next : Option Char} {t path : Text}

/-! ## The rules for stars -/

/-- The rules for stars: no more than two stand side by side, and two make up a path component by
themselves, with a slash or nothing on either side. -/
structure KeepsStarRules (t : Text) : Prop where
  atMostTwo : ¬ ['*', '*', '*'] <:+: t
  ownComponent : ∀ before after, t = before ++ '*' :: '*' :: after →
    (∀ c ∈ before.getLast?, c = '/') ∧ ∀ c ∈ after.head?, c = '/'

/-- Wherever two stars stand side by side in a text that stands after the character `prev`, they make
up a component. -/
def StarsFit (prev : Option Char) (t : Text) : Prop :=
  ∀ before after, t = before ++ '*' :: '*' :: after →
    opensComponent (before.getLast?.or prev) ∧ ∀ c ∈ after.head?, c = '/'

theorem opensComponent_iff : opensComponent prev ↔ ∀ c ∈ prev, c = '/' := by
  cases prev <;> simp [opensComponent]

/-- A third star is no slash, so the rule for two stars excludes it. -/
theorem keepsStarRules_iff : KeepsStarRules t ↔ StarsFit none t := by
  simp only [StarsFit, Option.or_none, opensComponent_iff]
  constructor
  · exact fun h => h.ownComponent
  · intro h
    refine ⟨?_, h⟩
    rintro ⟨before, after, rfl⟩
    have hslash := (h before ('*' :: after) (by simp)).2 '*' rfl
    exact absurd hslash (by decide)

theorem StarsFit.congr (h : opensComponent prev = opensComponent next) :
    StarsFit prev t ↔ StarsFit next t := by
  have hsame : ∀ before : Text,
      opensComponent (before.getLast?.or prev) = opensComponent (before.getLast?.or next) := by
    intro before
    cases before.getLast? with
    | none => exact h
    | some c => rfl
  simp only [StarsFit, hsame]

theorem starsFit_nil : StarsFit prev [] :=
  fun before after h => absurd h (by simp)

/-- Two stars either begin with the first character or stand behind it. -/
theorem starsFit_cons :
    StarsFit prev (c :: t) ↔
      (∀ after, c :: t = '*' :: '*' :: after → opensComponent prev ∧ ∀ d ∈ after.head?, d = '/') ∧
        StarsFit (some c) t := by
  have hlast : ∀ before : Text, (c :: before).getLast?.or prev = before.getLast?.or (some c) := by
    intro before
    rw [List.getLast?_cons]
    cases before.getLast? <;> rfl
  constructor
  · intro fits
    refine ⟨fun after ht => fits [] after ht, ?_⟩
    rintro before after rfl
    have hbefore := fits (c :: before) after rfl
    rwa [hlast] at hbefore
  · rintro ⟨first, fits⟩ before after ht
    cases before with
    | nil => exact first after ht
    | cons d before =>
      obtain ⟨rfl, rfl⟩ := List.cons.inj ht
      rw [hlast]
      exact fits before after rfl

theorem starsFit_cons_of_alone (h : c = '*' → t.head? ≠ some '*') :
    StarsFit prev (c :: t) ↔ StarsFit (some c) t := by
  rw [starsFit_cons, and_iff_right]
  intro after ht
  obtain ⟨rfl, rfl⟩ := List.cons.inj ht
  exact absurd rfl (h rfl)

theorem starsFit_twoStars :
    StarsFit prev ('*' :: '*' :: t) ↔
      (opensComponent prev ∧ ∀ d ∈ t.head?, d = '/') ∧ StarsFit (some '*') ('*' :: t) := by
  rw [starsFit_cons]
  simp

/-! ## What a text with ordinary brackets stands for -/

/-- The paths that a pattern text stands for when its brackets are ordinary characters. -/
inductive StandsFor : Text → Text → Prop
  | nil : StandsFor [] []
  /-- A character that is no wildcard stands for itself. -/
  | character {c : Char} {t path : Text} (hstar : c ≠ '*') (hmark : c ≠ '?')
      (h : StandsFor t path) : StandsFor (c :: t) (c :: path)
  /-- A question mark stands for one character that is no slash. -/
  | mark {c : Char} {t path : Text} (hslash : c ≠ '/') (h : StandsFor t path) :
    StandsFor ('?' :: t) (c :: path)
  /-- A single star stands for any number of characters that are no slashes. -/
  | run {t part path : Text} (halone : t.head? ≠ some '*') (hslash : '/' ∉ part)
      (h : StandsFor t path) : StandsFor ('*' :: t) (part ++ path)
  /-- Two stars at the end stand for whatever is left. -/
  | everything (path : Text) : StandsFor ['*', '*'] path
  /-- Two stars and a slash stand for no component, -/
  | noComponent {t path : Text} (h : StandsFor t path) : StandsFor ('*' :: '*' :: '/' :: t) path
  /-- for any number of leading components, each with the slash behind it, -/
  | components {t path : Text} (lead : Text) (h : StandsFor t path) :
    StandsFor ('*' :: '*' :: '/' :: t) (lead ++ '/' :: path)
  /-- and for all components, where the rest of the text need not stand for anything. -/
  | allComponents {t : Text} (path : Text) (h : StandsFor t []) :
    StandsFor ('*' :: '*' :: '/' :: t) path

theorem standsFor_nil : StandsFor [] path ↔ path = [] := by
  constructor
  · rintro ⟨⟩
    rfl
  · rintro rfl
    exact .nil

theorem standsFor_character (hstar : c ≠ '*') (hmark : c ≠ '?') :
    StandsFor (c :: t) path ↔ ∃ s, path = c :: s ∧ StandsFor t s := by
  constructor
  · intro h
    cases h with
    | character _ _ h => exact ⟨_, rfl, h⟩
    | mark => exact absurd rfl hmark
    | run => exact absurd rfl hstar
    | everything => exact absurd rfl hstar
    | noComponent => exact absurd rfl hstar
    | components => exact absurd rfl hstar
    | allComponents => exact absurd rfl hstar
  · rintro ⟨s, rfl, h⟩
    exact .character hstar hmark h

theorem standsFor_mark :
    StandsFor ('?' :: t) path ↔ ∃ c s, path = c :: s ∧ c ≠ '/' ∧ StandsFor t s := by
  constructor
  · intro h
    cases h with
    | character _ hmark => exact absurd rfl hmark
    | mark hslash h => exact ⟨_, _, rfl, hslash, h⟩
  · rintro ⟨c, s, rfl, hslash, h⟩
    exact .mark hslash h

theorem standsFor_run (halone : t.head? ≠ some '*') :
    StandsFor ('*' :: t) path ↔ ∃ part s, path = part ++ s ∧ '/' ∉ part ∧ StandsFor t s := by
  constructor
  · intro h
    cases h with
    | character hstar => exact absurd rfl hstar
    | run _ hslash h => exact ⟨_, _, rfl, hslash, h⟩
    | everything => exact absurd rfl halone
    | noComponent => exact absurd rfl halone
    | components => exact absurd rfl halone
    | allComponents => exact absurd rfl halone
  · rintro ⟨part, s, rfl, hslash, h⟩
    exact .run halone hslash h

theorem standsFor_components :
    StandsFor ('*' :: '*' :: '/' :: t) path ↔
      StandsFor t path ∨ (∃ lead s, path = lead ++ '/' :: s ∧ StandsFor t s) ∨ StandsFor t [] := by
  constructor
  · intro h
    cases h with
    | character hstar => exact absurd rfl hstar
    | run halone => exact absurd rfl halone
    | noComponent h => exact .inl h
    | components lead h => exact .inr (.inl ⟨lead, _, rfl, h⟩)
    | allComponents _ h => exact .inr (.inr h)
  · rintro (h | ⟨lead, s, rfl, h⟩ | h)
    · exact .noComponent h
    · exact .components lead h
    · exact .allComponents path h

/-- A text without wildcards stands for itself and nothing else. -/
theorem standsFor_of_no_wildcards (hstar : '*' ∉ t) (hmark : '?' ∉ t) :
    StandsFor t path ↔ path = t := by
  induction t generalizing path with
  | nil => exact standsFor_nil
  | cons c t ih =>
    have hc : c ≠ '*' := (List.ne_of_not_mem_cons hstar).symm
    have hc' : c ≠ '?' := (List.ne_of_not_mem_cons hmark).symm
    rw [standsFor_character hc hc']
    simp only [ih (List.not_mem_of_not_mem_cons hstar) (List.not_mem_of_not_mem_cons hmark)]
    simp

theorem keepsStarRules_of_no_stars (h : '*' ∉ t) : KeepsStarRules t := by
  rw [keepsStarRules_iff]
  rintro before after rfl
  simp at h

/-! ## Reading texts with their brackets escaped -/

theorem escapeBrackets_cons (c : Char) (t : Text) :
    escapeBrackets (c :: t) = escapeChar c ++ escapeBrackets t := List.flatMap_cons

theorem escapeChar_of_ne (hopen : c ≠ '[') (hclose : c ≠ ']') : escapeChar c = [c] := by
  rw [escapeChar, if_neg hopen, if_neg hclose]

theorem head?_escapeBrackets (hopen : c ≠ '[') (hclose : c ≠ ']') :
    (escapeBrackets t).head? = some c ↔ t.head? = some c := by
  cases t with
  | nil => rfl
  | cons d t =>
    rw [escapeBrackets_cons, escapeChar]
    split
    · simp_all [eq_comm]
    · split
      · simp_all [eq_comm]
      · rfl

/-- An escaped character is read as one element, which matches that character.  A component opens
behind it when one opens behind the character. -/
theorem tokensAfter_escapeChar (hstar : c ≠ '*') (hmark : c ≠ '?') (prev : Option Char)
    (rest : Text) :
    ∃ token last,
      tokensAfter prev (escapeChar c ++ rest) =
        (tokensAfter (some last) rest).map (token :: ·) ∧
      opensComponent (some last) = opensComponent (some c) ∧
      ∀ p path, accepts (token :: p) path = true ↔ ∃ s, path = c :: s ∧ accepts p s = true := by
  by_cases hopen : c = '['
  · subst hopen
    refine ⟨.oneOf [.single '['], ']', ?_, rfl, fun p path => accepts_oneOf_single (by decide)⟩
    simp [escapeChar, tokensAfter, classTokens, members]
  · by_cases hclose : c = ']'
    · subst hclose
      refine ⟨.oneOf [.single ']'], ']', ?_, rfl, fun p path => accepts_oneOf_single (by decide)⟩
      simp [escapeChar, tokensAfter, classTokens, members]
    · rw [escapeChar_of_ne hopen hclose]
      exact ⟨.literal c, c, tokensAfter_literal hstar hmark hopen prev rest, rfl,
        fun p path => accepts_literal⟩

/-- The result of reading is right for a text with ordinary brackets that stands after the character
`prev`: a pattern for what the text stands for, or a fault in its stars. -/
def IsReadingOf (t : Text) (prev : Option Char) : Except Fault Pattern → Prop
  | .ok p => StarsFit prev t ∧ ∀ path, accepts p path = true ↔ StandsFor t path
  | .error fault => ¬ StarsFit prev t ∧ fault ≠ .openClass

/-- One more element in front. -/
theorem IsReadingOf.map {u : Text} {token : Token} {read : Except Fault Pattern}
    (h : IsReadingOf t next read) (hfit : StarsFit prev u ↔ StarsFit next t)
    (hpaths : ∀ p, (∀ path, accepts p path = true ↔ StandsFor t path) →
      ∀ path, accepts (token :: p) path = true ↔ StandsFor u path) :
    IsReadingOf u prev (read.map (token :: ·)) := by
  cases read with
  | ok p => exact ⟨hfit.mpr h.1, hpaths p h.2⟩
  | error fault => exact ⟨fun fits => h.1 (hfit.mp fits), h.2⟩

/-- The parts of a text as they are read: two stars that are followed by something other than a
slash end the reading. -/
inductive Parts : Text → Prop
  | nil : Parts []
  | loose (c : Char) (t : Text) (hslash : c ≠ '/') : Parts ('*' :: '*' :: c :: t)
  | last : Parts ['*', '*']
  | components {t : Text} (h : Parts t) : Parts ('*' :: '*' :: '/' :: t)
  | run {t : Text} (halone : t.head? ≠ some '*') (h : Parts t) : Parts ('*' :: t)
  | mark {t : Text} (h : Parts t) : Parts ('?' :: t)
  | character {c : Char} {t : Text} (hstar : c ≠ '*') (hmark : c ≠ '?') (h : Parts t) :
    Parts (c :: t)

theorem Parts.of (t : Text) : Parts t := by
  induction hn : t.length using Nat.strong_induction_on generalizing t with
  | _ n ih =>
    have shorter : ∀ u : Text, u.length < t.length → Parts u := fun u hu => ih _ (hn ▸ hu) u rfl
    cases t with
    | nil => exact .nil
    | cons c t =>
      by_cases hmark : c = '?'
      · exact hmark ▸ .mark (shorter t (by simp))
      · by_cases hstar : c = '*'
        · subst hstar
          by_cases halone : t.head? = some '*'
          · obtain ⟨u, rfl⟩ := List.head?_eq_some_iff.mp halone
            cases u with
            | nil => exact .last
            | cons d u =>
              by_cases hslash : d = '/'
              · exact hslash ▸ .components (shorter u (by simp; omega))
              · exact .loose d u hslash
          · exact .run halone (shorter t (by simp))
        · exact .character hstar hmark (shorter t (by simp))

theorem escapeBrackets_cons_of_ne (hopen : c ≠ '[') (hclose : c ≠ ']') (t : Text) :
    escapeBrackets (c :: t) = c :: escapeBrackets t := by
  rw [escapeBrackets_cons, escapeChar_of_ne hopen hclose, List.singleton_append]

/-- Two stars that are followed by something other than a slash are a fault. -/
theorem tokensAfter_loose (prev : Option Char) {rest : Text} (hne : rest ≠ [])
    (hslash : rest.head? ≠ some '/') :
    ∃ fault, tokensAfter prev ('*' :: '*' :: rest) = .error fault ∧ fault ≠ .openClass := by
  obtain ⟨d, rest, rfl⟩ := List.exists_cons_of_ne_nil hne
  by_cases hstar : d = '*'
  · subst hstar
    exact ⟨.tooManyStars, by rw [tokensAfter], by decide⟩
  · have hd : d ≠ '/' := fun h => hslash (congrArg some h)
    exact ⟨.looseRecursion, by simp [tokensAfter], by decide⟩

theorem isReadingOf_escapeBrackets (t : Text) (prev : Option Char) :
    IsReadingOf t prev (tokensAfter prev (escapeBrackets t)) := by
  induction Parts.of t generalizing prev with
  | nil => exact ⟨starsFit_nil, fun path => accepts_nil.trans standsFor_nil.symm⟩
  | loose c t hslash =>
    have hfit : ¬ StarsFit prev ('*' :: '*' :: c :: t) := by
      rw [starsFit_twoStars]
      rintro ⟨⟨-, hnext⟩, -⟩
      exact hslash (hnext c rfl)
    have hne : escapeBrackets (c :: t) ≠ [] := by
      rw [escapeBrackets_cons, escapeChar]
      split <;> [simp; (split <;> simp)]
    have hhead : (escapeBrackets (c :: t)).head? ≠ some '/' := by
      rw [Ne, head?_escapeBrackets (by decide) (by decide)]
      simpa using hslash
    obtain ⟨fault, hread, hfault⟩ := tokensAfter_loose prev hne hhead
    have hstars : escapeBrackets ('*' :: '*' :: c :: t) =
        '*' :: '*' :: escapeBrackets (c :: t) := rfl
    rw [hstars, hread]
    exact ⟨hfit, hfault⟩
  | last =>
    have hopens : StarsFit prev ['*', '*'] ↔ opensComponent prev := by
      rw [starsFit_twoStars, starsFit_cons_of_alone (by simp)]
      simp [starsFit_nil]
    have hread : tokensAfter prev (escapeBrackets ['*', '*']) =
        if opensComponent prev then .ok [.anyComponents] else .error .looseRecursion := rfl
    rw [hread]
    split
    · rename_i hprev
      exact ⟨hopens.mpr hprev, fun path =>
        iff_of_true (accepts_everything path) (.everything path)⟩
    · rename_i hprev
      exact ⟨fun fits => hprev (hopens.mp fits), by decide⟩
  | @components t h ih =>
    have hfit : StarsFit prev ('*' :: '*' :: '/' :: t) ↔
        opensComponent prev ∧ StarsFit (some '/') t := by
      rw [starsFit_twoStars, starsFit_cons_of_alone (by simp), starsFit_cons_of_alone (by simp)]
      simp
    have hread : tokensAfter prev (escapeBrackets ('*' :: '*' :: '/' :: t)) =
        if opensComponent prev then
          (tokensAfter (some '/') (escapeBrackets t)).map (.anyComponents :: ·)
        else .error .looseRecursion := by
      have hescape : escapeBrackets ('*' :: '*' :: '/' :: t) =
          '*' :: '*' :: '/' :: escapeBrackets t := rfl
      rw [hescape, tokensAfter]
    rw [hread]
    split
    · rename_i hprev
      refine (ih (some '/')).map (hfit.trans (and_iff_right hprev)) fun p hp path => ?_
      simp only [accepts_anyComponents, standsFor_components, hp]
    · rename_i hprev
      exact ⟨fun fits => hprev (hfit.mp fits).1, by decide⟩
  | @run t halone h ih =>
    have hhead : (escapeBrackets t).head? ≠ some '*' := by
      rwa [Ne, head?_escapeBrackets (by decide) (by decide)]
    rw [escapeBrackets_cons_of_ne (by decide) (by decide), tokensAfter_star hhead]
    refine (ih (some '*')).map (starsFit_cons_of_alone fun _ => halone) fun p hp path => ?_
    simp only [accepts_anyRun, standsFor_run halone, hp]
  | @mark t h ih =>
    have hread : tokensAfter prev (escapeBrackets ('?' :: t)) =
        (tokensAfter (some '?') (escapeBrackets t)).map (.anyChar :: ·) := by
      rw [escapeBrackets_cons_of_ne (by decide) (by decide), tokensAfter]
    rw [hread]
    refine (ih (some '?')).map (starsFit_cons_of_alone (by simp)) fun p hp path => ?_
    simp only [accepts_anyChar, standsFor_mark, hp]
  | @character c t hstar hmark h ih =>
    obtain ⟨token, last, hread, hopens, hpaths⟩ :=
      tokensAfter_escapeChar hstar hmark prev (escapeBrackets t)
    rw [escapeBrackets_cons, hread]
    refine (ih (some last)).map ?_ fun p hp path => ?_
    · rw [starsFit_cons_of_alone fun hc => absurd hc hstar]
      exact StarsFit.congr hopens.symm
    · simp only [hpaths, standsFor_character hstar hmark, hp]

/-- A text with its brackets escaped is a pattern exactly when it keeps the rules for stars, and
brackets are no part of the fault otherwise.  The pattern matches the paths that the text stands for
with ordinary brackets.  In particular a text without wildcards matches itself and nothing else. -/
theorem ofText_escapeBrackets (t : Text) :
    ((∃ p, Pattern.ofText (escapeBrackets t) = .ok p) ↔ KeepsStarRules t) ∧
      (∀ e, Pattern.ofText (escapeBrackets t) = .error e → e.fault ≠ .openClass) ∧
      (∀ p, Pattern.ofText (escapeBrackets t) = .ok p →
        ∀ path, p.matches? path = true ↔ StandsFor t path) ∧
      ('*' ∉ t → '?' ∉ t → ∃ p, Pattern.ofText (escapeBrackets t) = .ok p ∧
        ∀ path, p.matches? path = true ↔ path = t) := by
  have hreading := isReadingOf_escapeBrackets t none
  rw [keepsStarRules_iff]
  simp only [Pattern.ofText, Pattern.matches?_eq_accepts]
  cases hread : tokensAfter none (escapeBrackets t) with
  | ok p =>
    rw [hread] at hreading
    obtain ⟨fits, hpaths⟩ := hreading
    refine ⟨iff_of_true ⟨p, rfl⟩ fits, nofun, ?_, fun hstar hmark => ⟨p, rfl, fun path => ?_⟩⟩
    · rintro q hq path
      obtain rfl : p = q := Except.ok.inj hq
      exact hpaths path
    · rw [hpaths, standsFor_of_no_wildcards hstar hmark]
  | error fault =>
    rw [hread] at hreading
    obtain ⟨unfit, hfault⟩ := hreading
    refine ⟨iff_of_false nofun unfit, ?_, nofun, fun hstar => ?_⟩
    · rintro e he
      obtain rfl := Except.error.inj he
      exact hfault
    · exact absurd (keepsStarRules_iff.mp (keepsStarRules_of_no_stars hstar)) unfit

/-- Brackets that look like a class, with wildcards between and behind them. -/
theorem ofText_escapeBrackets_classLike :
    KeepsStarRules "[!a]/**/[*]".toList ∧
      StandsFor "[!a]/**/[*]".toList "[!a]/x/[y]".toList ∧
      ¬ StandsFor "[!a]/**/[*]".toList "b/x/*".toList ∧
      ∃ p, Pattern.ofText (escapeBrackets "src/[id]".toList) = .ok p ∧
        ∀ path, p.matches? path = true ↔ path = "src/[id]".toList := by
  obtain ⟨hrules, -, hpaths, -⟩ := ofText_escapeBrackets "[!a]/**/[*]".toList
  have hread : Pattern.ofText (escapeBrackets "[!a]/**/[*]".toList) =
      .ok [.oneOf [.single '['], .literal '!', .literal 'a', .oneOf [.single ']'], .literal '/',
        .anyComponents, .oneOf [.single '['], .anyRun, .oneOf [.single ']']] := by decide +kernel
  refine ⟨hrules.mp ⟨_, hread⟩, ?_, ?_, ?_⟩
  · rw [← hpaths _ hread]
    decide +kernel
  · rw [← hpaths _ hread]
    decide +kernel
  · exact (ofText_escapeBrackets "src/[id]".toList).2.2.2 (by decide) (by decide)

end SourceBundle.Glob
