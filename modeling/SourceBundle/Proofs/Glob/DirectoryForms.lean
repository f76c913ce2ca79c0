import SourceBundle.Proofs.Glob.Matching
import SourceBundle.Proofs.Glob.PatternSets

/-!
# Directory forms

A pattern text for all that lies in a directory has a form for the directory itself, by which a
search leaves the directory out without entering it.  Nothing else is left out in this way: where the
form, or the pattern itself, accepts a directory, the pattern accepts all that lies below it
(`acceptsFile_of_acceptsDir`).

The argument puts matches one behind the other.  What the form matches ends where a slash can follow
(`accepts_below`), unless the form ends in a recursive wildcard.  If this closes the text of the form,
the slash behind it belongs to the wildcard and need not be there.  If the text goes on with a slash
of its own, that slash belongs to the wildcard already, and the pattern asks for one more: such a form
is the one exception.
-/

namespace SourceBundle.Glob

/-! ## Matches put one behind the other -/

/-- With `More` behind whatever `p` matches, `q` matches the whole. -/
def Continues (More : Text → Prop) (p q : Pattern) : Prop :=
  ∀ s more, More more → accepts p s = true → accepts q (s ++ more) = true

/-- The same elements may stand in front of both patterns, if each recursive wildcard among them that
takes the whole path lets `More` follow. -/
theorem Continues.append {More : Text → Prop} {p q front : Pattern} (hmore : Continues More p q)
    (hend : ∀ rest, .anyComponents :: rest <:+ front → Continues More (rest ++ p) (rest ++ q) →
      accepts (rest ++ p) [] = true →
      ∀ path more, More more → accepts (.anyComponents :: (rest ++ q)) (path ++ more) = true) :
    Continues More (front ++ p) (front ++ q) := by
  induction front with
  | nil => exact hmore
  | cons token front ih =>
    have behind := ih fun rest hrest => hend rest (hrest.trans (List.suffix_cons token front))
    intro path more h hpath
    cases token with
    | literal d =>
      obtain ⟨s, rfl, hs⟩ := accepts_literal.mp hpath
      exact accepts_literal.mpr ⟨s ++ more, rfl, behind s more h hs⟩
    | anyChar =>
      obtain ⟨c, s, rfl, hc, hs⟩ := accepts_anyChar.mp hpath
      exact accepts_anyChar.mpr ⟨c, s ++ more, rfl, hc, behind s more h hs⟩
    | oneOf ms =>
      obtain ⟨c, s, rfl, hc, hms, hs⟩ := afterOne_iff.mp hpath
      exact afterOne_iff.mpr ⟨c, s ++ more, rfl, hc, hms, behind s more h hs⟩
    | noneOf ms =>
      obtain ⟨c, s, rfl, hc, hms, hs⟩ := afterOne_iff.mp hpath
      exact afterOne_iff.mpr ⟨c, s ++ more, rfl, hc, hms, behind s more h hs⟩
    | anyRun =>
      obtain ⟨run, s, rfl, hrun, hs⟩ := accepts_anyRun.mp hpath
      exact accepts_anyRun.mpr
        ⟨run, s ++ more, List.append_assoc run s more, hrun, behind s more h hs⟩
    | anyComponents =>
      rcases accepts_anyComponents.mp hpath with hs | ⟨lead, s, rfl, hs⟩ | hs
      · exact accepts_anyComponents.mpr (.inl (behind path more h hs))
      · exact accepts_anyComponents.mpr
          (.inr (.inl ⟨lead, s ++ more, by simp, behind s more h hs⟩))
      · exact hend front List.suffix_rfl behind hs path more h

/-- A recursive wildcard at the end takes whatever follows a match. -/
theorem accepts_append_everything {front p : Pattern} {path : Text}
    (h : accepts (front ++ p) path = true) (more : Text) :
    accepts (front ++ [.anyComponents]) (path ++ more) = true := by
  have hmore : Continues (fun _ => True) p [.anyComponents] := fun _ _ _ _ => accepts_everything _
  refine hmore.append ?_ path more trivial h
  intro rest _ behind hnil path more _
  exact accepts_anyComponents.mpr (.inr (.inr (behind [] [] trivial hnil)))

/-- A path without slashes is matched by what matches the empty path, if this does not end in a
recursive wildcard. -/
theorem accepts_of_accepts_nil {p : Pattern} (hp : p ≠ []) (hlast : p.getLast? ≠ some .anyComponents)
    (hnil : accepts p [] = true) {name : Text} (hname : '/' ∉ name) : accepts p name = true := by
  induction p with
  | nil => exact absurd rfl hp
  | cons token p ih =>
    have behind : p ≠ [] → accepts p [] = true → accepts p name = true := by
      intro hne
      refine ih hne ?_
      rwa [List.getLast?_cons_of_ne_nil hne] at hlast
    cases token with
    | literal | anyChar | oneOf | noneOf => cases hnil
    | anyRun =>
      obtain ⟨run, s, hempty, -, hs⟩ := accepts_anyRun.mp hnil
      obtain ⟨rfl, rfl⟩ := List.append_eq_nil_iff.mp hempty.symm
      by_cases hnext : p = []
      · subst hnext
        exact accepts_anyRun.mpr ⟨name, [], (List.append_nil name).symm, hname, rfl⟩
      · exact accepts_anyRun.mpr ⟨[], name, rfl, List.not_mem_nil, behind hnext hs⟩
    | anyComponents =>
      have hnext : p ≠ [] := by
        rintro rfl
        exact hlast rfl
      refine accepts_anyComponents.mpr (.inl (behind hnext ?_))
      rcases accepts_anyComponents.mp hnil with hs | ⟨lead, s, hempty, -⟩ | hs
      · exact hs
      · simp at hempty
      · exact hs

/-- A path ends in a name without slashes. -/
theorem exists_last_name (path : Text) :
    ∃ name, '/' ∉ name ∧ (path = name ∨ ∃ lead, path = lead ++ '/' :: name) := by
  induction path with
  | nil => exact ⟨[], List.not_mem_nil, .inl rfl⟩
  | cons c path ih =>
    obtain ⟨name, hname, rfl | ⟨lead, rfl⟩⟩ := ih
    · by_cases hc : c = '/'
      · exact ⟨path, hname, .inr ⟨[], by rw [hc]; rfl⟩⟩
      · exact ⟨c :: path, List.not_mem_cons_of_ne_of_not_mem (Ne.symm hc) hname, .inl rfl⟩
    · exact ⟨name, hname, .inr ⟨c :: lead, rfl⟩⟩

/-- What does not end in a recursive wildcard and accepts a directory lets anything follow below
it. -/
theorem accepts_below {p : Pattern} (hlast : p.getLast? ≠ some .anyComponents) {dir : Text}
    (h : accepts p dir = true) (below : Text) :
    accepts (p ++ [.literal '/', .anyComponents]) (dir ++ '/' :: below) = true := by
  have hmore : Continues (fun more => ∃ below, more = '/' :: below) []
      [.literal '/', .anyComponents] := by
    rintro s _ ⟨below, rfl⟩ hs
    obtain rfl := accepts_nil.mp hs
    exact accepts_literal.mpr ⟨below, rfl, accepts_everything below⟩
  rw [← List.append_nil p] at h
  refine hmore.append ?_ dir _ ⟨below, rfl⟩ h
  -- The wildcard need not take the last name of the directory, which `rest` takes as well.
  rintro rest ⟨front, rfl⟩ behind hnil path _ ⟨below, rfl⟩
  have hrest : rest ≠ [] := by
    rintro rfl
    simp at hlast
  have hlast' : rest.getLast? ≠ some .anyComponents := by
    rwa [List.getLast?_append_cons, List.getLast?_cons_of_ne_nil hrest] at hlast
  rw [List.append_nil] at hnil behind
  have named : ∀ name, '/' ∉ name →
      accepts (rest ++ [.literal '/', .anyComponents]) (name ++ '/' :: below) = true :=
    fun name hname => behind name _ ⟨below, rfl⟩ (accepts_of_accepts_nil hrest hlast' hnil hname)
  obtain ⟨name, hname, rfl | ⟨lead, rfl⟩⟩ := exists_last_name path
  · exact accepts_anyComponents.mpr (.inl (named path hname))
  · exact accepts_anyComponents.mpr
      (.inr (.inl ⟨lead, name ++ '/' :: below, by simp, named name hname⟩))

/-! ## Patterns for all that lies in a directory -/

/-- The pattern text is for all that lies in the directory `dir`. -/
def NamesAllIn (dir raw : Text) : Prop := raw = dir ++ ['/', '*', '*'] ∨ raw = dir ++ ['/']

theorem forms_of_namesAllIn {dir raw : Text} (h : NamesAllIn dir raw) :
    PatternSet.forms raw = (dir ++ '/' :: ['*', '*'], some dir) := by
  rcases h with rfl | rfl
  · simp [PatternSet.forms]
  · have hnone : Text.before? ['/', '*', '*'] (dir ++ ['/']) = none := by
      simp [Text.before?, Text.after?]
    simp [PatternSet.forms, hnone]

theorem matchesText_iff {t path : Text} :
    matchesText t path = true ↔ ∃ p, tokensAfter none t = .ok p ∧ accepts p path = true := by
  rw [matchesText]
  cases tokensAfter none t <;> simp

/-- The elements of a directory's name, with the slash and the recursive wildcard behind them. -/
theorem readsOn_stars (dir : Text) :
    ReadsOn dir (.ok [.anyComponents]) (tokensAfter none dir)
      (tokensAfter none (dir ++ '/' :: ['*', '*'])) :=
  readsOn_tokensAfter (by decide) none dir

theorem exists_front_of_tokensAfter {dir : Text} {p : Pattern}
    (h : tokensAfter none (dir ++ '/' :: ['*', '*']) = .ok p) :
    ∃ front, p = front ++ [.anyComponents] := by
  have hread := readsOn_stars dir
  rw [h] at hread
  cases hdir : tokensAfter none dir with
  | error fault =>
    rw [hdir] at hread
    cases hread
  | ok q =>
    rw [hdir] at hread
    rcases hread with ⟨hp, -⟩ | ⟨hp, -⟩
    · refine ⟨q ++ [.literal '/'], ?_⟩
      rw [Except.ok.inj hp, List.append_assoc]
      rfl
    · exact ⟨q, Except.ok.inj hp⟩

/-- What the form of a directory accepts may have anything below it. -/
theorem matchesText_below {dir path : Text} (hdir : ¬ ['*', '*', '/'] <:+ dir)
    (h : matchesText dir path = true) (below : Text) :
    matchesText (dir ++ '/' :: ['*', '*']) (path ++ '/' :: below) = true := by
  obtain ⟨p, hp, hpath⟩ := matchesText_iff.mp h
  have hread := readsOn_stars dir
  rw [hp] at hread
  rcases hread with ⟨hwhole, hlast⟩ | ⟨hwhole, -⟩
  · exact matchesText_iff.mpr ⟨_, hwhole, accepts_below (fun h => hdir (hlast h)) hpath below⟩
  · rw [← List.append_nil p] at hpath
    exact matchesText_iff.mpr ⟨_, hwhole, accepts_append_everything hpath _⟩

/-- The pattern text is for all that lies in a directory.  It does not ask for an empty name behind a
recursive wildcard, as it would if the directory's own text ended in one and a slash. -/
def NamesDirectory (raw : Text) : Prop :=
  ∃ dir, NamesAllIn dir raw ∧ ¬ ['*', '*', '/'] <:+ dir

/-- What is accepted as a directory is accepted with all that lies below it. -/
theorem acceptsFile_of_acceptsDir {raw : Text} (hraw : NamesDirectory raw) {path : Text}
    (h : acceptsDir raw path = true) (below : Text) :
    acceptsFile raw (path ++ '/' :: below) = true := by
  obtain ⟨dir, hnames, hdir⟩ := hraw
  have hforms := forms_of_namesAllIn hnames
  simp only [acceptsDir, acceptsFile, hforms, Option.any_some, Bool.or_eq_true] at h ⊢
  rcases h with hform | hfile
  · exact matchesText_below hdir hform below
  · obtain ⟨p, hp, hpath⟩ := matchesText_iff.mp hfile
    obtain ⟨front, rfl⟩ := exists_front_of_tokensAfter hp
    exact matchesText_iff.mpr ⟨_, hp, accepts_append_everything hpath _⟩

/-- A set of such patterns accepts what lies below the directories that it accepts. -/
theorem PatternSet.AcceptsAsTexts.acceptsFile_below {set : PatternSet} {raws : List Text}
    (hset : set.AcceptsAsTexts raws) (hraws : ∀ raw ∈ raws, NamesDirectory raw) {dir : Text}
    (h : set.acceptsDir dir = true) (below : Text) :
    set.acceptsFile (dir ++ '/' :: below) = true := by
  rw [hset.dir, List.any_eq_true] at h
  obtain ⟨raw, hraw, haccepts⟩ := h
  rw [hset.file, List.any_eq_true]
  exact ⟨raw, hraw, acceptsFile_of_acceptsDir (hraws raw hraw) haccepts below⟩

end SourceBundle.Glob
