import SourceBundle.Glob.PatternSet
import SourceBundle.Proofs.Results
import SourceBundle.Proofs.Text.Leads

/-!
# What sets of patterns accept

A set is made from pattern texts, and for a text that names all below a directory two forms are
read.  The reading of a text without faults does not fail on its forms: a slash that closes a text
stands outside every class, so what is before the slash is a pattern of its own
(`readsOn_tokensAfter`).  Its elements stay what they are, but for a recursive wildcard at the end,
to which the slash belongs.

It follows that a set can be made of any pattern texts, and that what the set accepts is told text by
text (`exists_ofTexts`).
-/

namespace SourceBundle.Glob

theorem isPattern_eq_isOk (t : Text) : isPattern t = (tokensAfter none t).isOk := by
  rw [isPattern]
  cases tokensAfter none t <;> rfl

/-! ## Slashes in pattern texts -/

theorem classTokens_of_not_mem (kind : List Member → Token) (read : Text) {t : Text}
    (h : ']' ∉ t) : classTokens kind read t = .error .openClass := by
  induction t generalizing read with
  | nil => rw [classTokens]
  | cons c t ih =>
    have hc : c ≠ ']' := (List.ne_of_not_mem_cons h).symm
    rw [classTokens.eq_3 _ _ _ _ hc, ih _ (List.not_mem_of_not_mem_cons h)]

theorem tokensAfter_star {t : Text} (h : t.head? ≠ some '*') (prev : Option Char) :
    tokensAfter prev ('*' :: t) = (tokensAfter (some '*') t).map (.anyRun :: ·) := by
  have hne : ∀ rest, t ≠ '*' :: rest := by
    rintro rest rfl
    exact h rfl
  rw [tokensAfter.eq_6 prev t (fun rest => hne _) (hne _) (fun rest => hne _)
    (fun c rest => hne _)]

theorem tokensAfter_literal {c : Char} (hstar : c ≠ '*') (hmark : c ≠ '?') (hbracket : c ≠ '[')
    (prev : Option Char) (t : Text) :
    tokensAfter prev (c :: t) = (tokensAfter (some c) t).map (.literal c :: ·) := by
  rw [tokensAfter.eq_12] <;> simp [hstar, hmark, hbracket]

theorem tokensAfter_class {c : Char} (hc : c ≠ '!') (prev : Option Char) (t : Text) :
    tokensAfter prev ('[' :: c :: t) = classTokens .oneOf [c] t := by
  simp [tokensAfter, hc]

/-- Induction along the reading of a text.  The cases are those of the reader, with what it knows in
them of the characters ahead. -/
theorem reading_induction {text : Option Char → Text → Prop}
    {inside : (List Member → Token) → Text → Text → Prop}
    (nil : ∀ prev, text prev [])
    (threeStars : ∀ prev t, text prev ('*' :: '*' :: '*' :: t))
    (lastStars : ∀ prev, text prev ['*', '*'])
    (component : ∀ prev t, opensComponent prev → text (some '/') t →
      text prev ('*' :: '*' :: '/' :: t))
    (closedComponent : ∀ prev t, ¬ opensComponent prev → text prev ('*' :: '*' :: '/' :: t))
    (looseStars : ∀ prev c t, c ≠ '*' → c ≠ '/' → text prev ('*' :: '*' :: c :: t))
    (star : ∀ prev t, t.head? ≠ some '*' → text (some '*') t → text prev ('*' :: t))
    (mark : ∀ prev t, text (some '?') t → text prev ('?' :: t))
    (noneOf : ∀ prev c t, inside .noneOf [c] t → text prev ('[' :: '!' :: c :: t))
    (oneOf : ∀ prev c t, c ≠ '!' → inside .oneOf [c] t → text prev ('[' :: c :: t))
    (bracket : ∀ prev lead, lead = ['['] ∨ lead = ['[', '!'] → text prev lead)
    (literal : ∀ prev c t, c ≠ '*' → c ≠ '?' → c ≠ '[' → text (some c) t → text prev (c :: t))
    (opened : ∀ kind read, inside kind read [])
    (closing : ∀ kind read t, text (some ']') t → inside kind read (']' :: t))
    (member : ∀ kind read c t, c ≠ ']' → inside kind (c :: read) t → inside kind read (c :: t)) :
    (∀ prev t, text prev t) ∧ ∀ kind read t, inside kind read t := by
  apply tokensAfter.mutual_induct
  · exact nil
  · exact threeStars
  · exact fun prev _ => lastStars prev
  · exact fun prev _ => lastStars prev
  · exact component
  · exact closedComponent
  · exact looseStars
  · intro prev t hthree htwo hcomponent hloose
    refine star prev t ?_
    cases t with
    | nil => simp
    | cons c t =>
      intro hc
      obtain rfl : c = '*' := Option.some.inj hc
      cases t with
      | nil => exact htwo rfl
      | cons d t => exact hloose d t rfl
  · exact mark
  · exact noneOf
  · exact fun prev => bracket prev _ (.inr rfl)
  · intro prev c t hpair hend
    refine oneOf prev c t ?_
    rintro rfl
    cases t with
    | nil => exact hend rfl rfl
    | cons d t => exact hpair d t rfl rfl
  · exact fun prev => bracket prev _ (.inl rfl)
  · intro prev c t _ _ _ _ hstar hmark _ _ hpair hend
    refine literal prev c t hstar hmark ?_
    rintro rfl
    cases t with
    | nil => exact hend rfl rfl
    | cons d t => exact hpair d t rfl rfl
  · exact opened
  · exact closing
  · exact member

/-- Nothing but the empty text is read as no elements. -/
theorem eq_nil_of_tokensAfter {prev : Option Char} {t : Text} (h : tokensAfter prev t = .ok []) :
    t = [] := by
  have hmap : ∀ (token : Token) (read : Except Fault Pattern), read.map (token :: ·) ≠ .ok [] := by
    intro token read
    cases read <;> nofun
  have both : (∀ prev t, tokensAfter prev t = .ok [] → t = []) ∧
      ∀ kind read t, classTokens kind read t ≠ .ok [] := by
    apply tokensAfter.mutual_induct <;> simp_all [tokensAfter, classTokens]
  exact both.1 prev t h

/-- How a text is read on when a slash and `more` stand behind it: `read` is what it gives alone, and
`whole` what it gives then.  The slash is an element of its own, or it belongs to the recursive
wildcard in front of it.  A fault stays what it is. -/
def ReadsOn (t : Text) (more : Except Fault Pattern) :
    (read whole : Except Fault Pattern) → Prop
  | .error fault, whole => whole = .error fault
  | .ok p, whole =>
    (whole = more.map (p ++ .literal '/' :: ·) ∧
        (p.getLast? = some .anyComponents → ['*', '*', '/'] <:+ t)) ∨
      (whole = more.map (p ++ ·) ∧ p.getLast? = some .anyComponents)

theorem ReadsOn.isOk {t : Text} {more read whole : Except Fault Pattern}
    (h : ReadsOn t more read whole) : whole.isOk = (read.isOk && more.isOk) := by
  cases read with
  | error fault =>
    obtain rfl : whole = .error fault := h
    rfl
  | ok p => rcases h with ⟨rfl, -⟩ | ⟨rfl, -⟩ <;> simp

theorem ReadsOn.of_suffix {t u : Text} {more read whole : Except Fault Pattern}
    (h : ReadsOn t more read whole) (hsuffix : t <:+ u) : ReadsOn u more read whole := by
  cases read with
  | error fault => exact h
  | ok p => exact h.imp_left fun hslash => ⟨hslash.1, fun hlast => (hslash.2 hlast).trans hsuffix⟩

/-- One more element in front. -/
theorem ReadsOn.map {t u : Text} {more read whole : Except Fault Pattern} {token : Token}
    (h : ReadsOn t more read whole) (hsuffix : t <:+ u)
    (htoken : token = .anyComponents → read = .ok [] → ['*', '*', '/'] <:+ u) :
    ReadsOn u more (read.map (token :: ·)) (whole.map (token :: ·)) := by
  have hmap : ∀ (f : Pattern → Pattern), (more.map f).map (token :: ·) =
      more.map fun q => token :: f q := by
    intro f
    cases more <;> rfl
  cases read with
  | error fault =>
    obtain rfl : whole = .error fault := h
    rfl
  | ok p =>
    rcases h with ⟨rfl, hslash⟩ | ⟨rfl, hlast⟩
    · refine .inl ⟨hmap _, fun hlast => ?_⟩
      cases p with
      | nil => exact htoken (Option.some.inj hlast) rfl
      | cons first p => exact (hslash (by simpa using hlast)).trans hsuffix
    · refine .inr ⟨hmap _, ?_⟩
      cases p with
      | nil => cases hlast
      | cons first p => simpa using hlast

/-- A slash ends what is before it, unless the class in which it stands is closed behind it.  So a
text with a slash is read as the texts on both sides are. -/
theorem readsOn_tokensAfter {after : Text} (h : ']' ∉ after) (prev : Option Char) (t : Text) :
    ReadsOn t (tokensAfter (some '/') after) (tokensAfter prev t)
      (tokensAfter prev (t ++ '/' :: after)) := by
  have hclass : ∀ (kind : List Member → Token) (read : Text),
      classTokens kind read after = .error .openClass :=
    fun kind read => classTokens_of_not_mem kind read h
  have both : (∀ prev t, ReadsOn t (tokensAfter (some '/') after) (tokensAfter prev t)
      (tokensAfter prev (t ++ '/' :: after))) ∧
      ∀ kind read t, (∀ ms, kind ms ≠ .anyComponents) →
        ReadsOn t (tokensAfter (some '/') after) (classTokens kind read t)
          (classTokens kind read (t ++ '/' :: after)) := by
    apply reading_induction
    case nil =>
      intro prev
      exact .inl ⟨tokensAfter_literal (by decide) (by decide) (by decide) prev after, by simp⟩
    -- Stars: three are too many, two stand in a component of their own, one matches a run.
    case threeStars =>
      intro prev t
      simp [tokensAfter, ReadsOn]
    case lastStars =>
      intro prev
      cases hopens : opensComponent prev <;> simp [tokensAfter, hopens, ReadsOn]
    case component =>
      intro prev t hopens ih
      simp only [List.cons_append, tokensAfter, hopens, if_true]
      refine ih.map ⟨['*', '*', '/'], rfl⟩ fun _ hnil => ?_
      rw [eq_nil_of_tokensAfter hnil]
    case closedComponent =>
      intro prev t hopens
      simp [tokensAfter, hopens, ReadsOn]
    case looseStars =>
      intro prev c t hstar hslash
      simp [tokensAfter, ReadsOn]
    case star =>
      intro prev t hhead ih
      have hlong : (t ++ '/' :: after).head? ≠ some '*' := by
        cases t with
        | nil => simp
        | cons c t => exact hhead
      rw [List.cons_append, tokensAfter_star hhead, tokensAfter_star hlong]
      exact ih.map (List.suffix_cons _ _) nofun
    case mark =>
      intro prev t ih
      simp only [List.cons_append, tokensAfter]
      exact ih.map (List.suffix_cons _ _) nofun
    case noneOf =>
      intro prev c t ih
      simp only [List.cons_append, tokensAfter]
      exact (ih nofun).of_suffix ⟨['[', '!', c], rfl⟩
    case oneOf =>
      intro prev c t hc ih
      rw [List.cons_append, List.cons_append, tokensAfter_class hc, tokensAfter_class hc]
      exact (ih nofun).of_suffix ⟨['[', c], rfl⟩
    case bracket =>
      rintro prev lead (rfl | rfl)
      · simp [tokensAfter, hclass, ReadsOn]
      · simp [tokensAfter, hclass, ReadsOn]
    case literal =>
      intro prev c t hstar hmark hbracket ih
      rw [List.cons_append, tokensAfter_literal hstar hmark hbracket,
        tokensAfter_literal hstar hmark hbracket]
      exact ih.map (List.suffix_cons _ _) nofun
    case opened =>
      intro kind read hkind
      simp [classTokens, hclass, ReadsOn]
    case closing =>
      intro kind read t ih hkind
      simp only [List.cons_append, classTokens]
      exact ih.map (List.suffix_cons _ _) fun h => absurd h (hkind _)
    case member =>
      intro kind read c t hc ih hkind
      rw [List.cons_append, classTokens.eq_3 _ _ _ _ hc, classTokens.eq_3 _ _ _ _ hc]
      exact (ih hkind).of_suffix (List.suffix_cons c t)
  exact both.1 prev t

/-- A text with a slash is a pattern when the texts on both sides are. -/
theorem isOk_tokensAfter_slash {after : Text} (h : ']' ∉ after) (prev : Option Char) (t : Text) :
    (tokensAfter prev (t ++ '/' :: after)).isOk =
      ((tokensAfter prev t).isOk && (tokensAfter (some '/') after).isOk) :=
  (readsOn_tokensAfter h prev t).isOk

/-! ## Forms -/

/-- The forms of a pattern text are pattern texts. -/
theorem isPattern_forms {raw : Text} (h : isPattern raw) :
    isPattern (PatternSet.forms raw).1 ∧
      ∀ dir ∈ (PatternSet.forms raw).2, isPattern dir := by
  have slash : ∀ (dir after : Text), ']' ∉ after → isPattern (dir ++ '/' :: after) =
      (isPattern dir && (tokensAfter (some '/') after).isOk) := by
    intro dir after hafter
    rw [isPattern_eq_isOk, isOk_tokensAfter_slash hafter, ← isPattern_eq_isOk]
  have hstars : (tokensAfter (some '/') ['*', '*']).isOk = true := rfl
  unfold PatternSet.forms
  split
  · rename_i dir hraw
    rw [Text.before?_eq_some_iff] at hraw
    have hdir : isPattern dir = true := by
      rw [hraw, slash dir ['*', '*'] (by simp), Bool.and_eq_true] at h
      exact h.1
    exact ⟨h, by simpa using hdir⟩
  · split
    · rename_i dir hraw
      rw [Text.before?_eq_some_iff] at hraw
      have hdir : isPattern dir = true := by
        rw [hraw, slash dir [] (by simp), Bool.and_eq_true] at h
        exact h.1
      refine ⟨?_, by simpa using hdir⟩
      rw [slash dir ['*', '*'] (by simp), hdir, hstars]
      rfl
    · exact ⟨h, by simp⟩

/-- The pattern of a text accepts a path. -/
def matchesText (t path : Text) : Bool :=
  match tokensAfter none t with
  | .ok p => accepts p path
  | .error _ => false

/-- A pattern text of a set accepts the path of a file. -/
def acceptsFile (raw path : Text) : Bool := matchesText (PatternSet.forms raw).1 path

/-- A pattern text of a set accepts the path of a directory. -/
def acceptsDir (raw path : Text) : Bool :=
  (PatternSet.forms raw).2.any (matchesText · path) || acceptsFile raw path

/-! ## Sets -/

namespace PatternSet

/-- The set accepts what one of the pattern texts does. -/
structure AcceptsAsTexts (set : PatternSet) (raws : List Text) : Prop where
  file : ∀ path, set.acceptsFile path = raws.any (Glob.acceptsFile · path)
  dir : ∀ path, set.acceptsDir path = raws.any (Glob.acceptsDir · path)

theorem exists_compileForm {form : Text} (h : isPattern form) (raw : Text) :
    ∃ p, compileForm raw form = .ok p ∧ ∀ path, p.matches? path = matchesText form path := by
  rw [isPattern_eq_isOk, isOk_iff_exists] at h
  obtain ⟨p, hp⟩ := h
  refine ⟨p, ?_, fun path => ?_⟩
  · rw [compileForm, hp, Except.mapError]
  · rw [Pattern.matches?_eq_accepts, matchesText, hp]

theorem exists_add {set : PatternSet} {raws : List Text} (hset : set.AcceptsAsTexts raws)
    {raw : Text} (h : isPattern raw) :
    ∃ set', set.add raw = .ok set' ∧ set'.AcceptsAsTexts (raws ++ [raw]) := by
  obtain ⟨hpath, hdirs⟩ := isPattern_forms h
  obtain ⟨p, hp, matches_p⟩ := exists_compileForm hpath raw
  have hfile : ∀ (dirs : List Pattern) (path : Text),
      acceptsFile ⟨set.paths ++ [p], dirs⟩ path = (raws ++ [raw]).any (Glob.acceptsFile · path) := by
    intro dirs path
    have hold := hset.file path
    simp only [acceptsFile] at hold
    simp [acceptsFile, Glob.acceptsFile, hold, matches_p]
  have hold : ∀ path, (set.dirs.any (Pattern.matches? · path) || set.acceptsFile path) =
      raws.any (Glob.acceptsDir · path) := hset.dir
  unfold add
  split
  · rename_i path dir hforms
    obtain ⟨d, hd, matches_d⟩ := exists_compileForm (hdirs dir (by rw [hforms]; rfl)) raw
    rw [hforms] at hp
    refine ⟨⟨set.paths ++ [p], set.dirs ++ [d]⟩, ?_, hfile _, fun f => ?_⟩
    · rw [hd, hp]
      rfl
    · rw [acceptsDir, hfile, List.any_append, List.any_append, ← hset.file, List.any_append, ← hold]
      simp [Glob.acceptsDir, hforms, matches_d, Bool.or_assoc, Bool.or_left_comm]
  · rename_i path hforms
    rw [hforms] at hp
    refine ⟨⟨set.paths ++ [p], set.dirs⟩, ?_, hfile _, fun f => ?_⟩
    · rw [hp]
      rfl
    · rw [acceptsDir, hfile, List.any_append, ← hset.file, List.any_append, ← hold]
      simp [Glob.acceptsDir, hforms, Bool.or_assoc]

theorem exists_foldlM_add {set : PatternSet} {before : List Text}
    (hset : set.AcceptsAsTexts before) {raws : List Text} (h : ∀ raw ∈ raws, isPattern raw) :
    ∃ set', raws.foldlM add set = .ok set' ∧ set'.AcceptsAsTexts (before ++ raws) := by
  induction raws generalizing set before with
  | nil => exact ⟨set, rfl, by simpa using hset⟩
  | cons raw raws ih =>
    obtain ⟨set', hadd, hset'⟩ := exists_add hset (h raw List.mem_cons_self)
    obtain ⟨set'', hfold, hset''⟩ := ih hset' fun r hr => h r (List.mem_cons_of_mem raw hr)
    refine ⟨set'', ?_, by simpa using hset''⟩
    rw [List.foldlM_cons, hadd]
    exact hfold

/-- Pattern texts make a set, which accepts what one of them does. -/
theorem exists_ofTexts {raws : List Text} (h : ∀ raw ∈ raws, isPattern raw) :
    ∃ set, ofTexts raws = .ok set ∧ set.AcceptsAsTexts raws := by
  have hempty : empty.AcceptsAsTexts [] := ⟨fun _ => rfl, fun _ => rfl⟩
  exact exists_foldlM_add hempty h

theorem acceptsAsTexts_of_ofTexts {raws : List Text} (h : ∀ raw ∈ raws, isPattern raw)
    {set : PatternSet} (hset : ofTexts raws = .ok set) : set.AcceptsAsTexts raws := by
  obtain ⟨set', hset', haccepts⟩ := exists_ofTexts h
  obtain rfl : set' = set := Except.ok.inj (hset'.symm.trans hset)
  exact haccepts

end PatternSet

end SourceBundle.Glob
