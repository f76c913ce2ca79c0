import SourceBundle.Glob.Match

/-!
# What the elements of patterns match

Each element takes a part of the path, and the elements after it take what follows.  The lemmas here
say for each kind of element which parts these are, so that nothing else looks into the search for
them.

A recursive wildcard takes leading components with their slashes.  It may take the path as a whole if
nothing need follow.
-/

namespace SourceBundle.Glob

variable {rest : Text → Bool} {p : Pattern} {path : Text}

theorem afterRun_iff :
    afterRun rest path = true ↔ ∃ run s, path = run ++ s ∧ '/' ∉ run ∧ rest s = true := by
  induction path with
  | nil => simp [afterRun, and_assoc]
  | cons c path ih =>
    rw [afterRun, Bool.or_eq_true, Bool.and_eq_true, ih, bne_iff_ne]
    constructor
    · rintro (hrest | ⟨hc, run, s, rfl, hrun, hrest⟩)
      · exact ⟨[], c :: path, rfl, List.not_mem_nil, hrest⟩
      · exact ⟨c :: run, s, rfl, List.not_mem_cons_of_ne_of_not_mem hc.symm hrun, hrest⟩
    · rintro ⟨run, s, hpath, hrun, hrest⟩
      cases run with
      | nil =>
        rw [hpath]
        exact .inl hrest
      | cons d run =>
        obtain ⟨rfl, rfl⟩ := List.cons.inj hpath
        exact .inr ⟨(List.ne_of_not_mem_cons hrun).symm, run, s, rfl,
          List.not_mem_of_not_mem_cons hrun, hrest⟩

theorem afterSlash_iff :
    afterSlash rest path = true ↔
      (∃ lead s, path = lead ++ '/' :: s ∧ rest s = true) ∨ rest [] = true := by
  induction path with
  | nil => simp [afterSlash]
  | cons c path ih =>
    rw [afterSlash, Bool.or_eq_true, Bool.and_eq_true, ih, beq_iff_eq]
    constructor
    · rintro (⟨rfl, hrest⟩ | ⟨lead, s, rfl, hrest⟩ | hend)
      · exact .inl ⟨[], path, rfl, hrest⟩
      · exact .inl ⟨c :: lead, s, rfl, hrest⟩
      · exact .inr hend
    · rintro (⟨lead, s, hpath, hrest⟩ | hend)
      · cases lead with
        | nil =>
          obtain ⟨rfl, rfl⟩ := List.cons.inj hpath
          exact .inl ⟨rfl, hrest⟩
        | cons d lead =>
          obtain ⟨rfl, rfl⟩ := List.cons.inj hpath
          exact .inr (.inl ⟨lead, s, rfl, hrest⟩)
      · exact .inr (.inr hend)

theorem afterOne_iff {test : Char → Bool} :
    afterOne test rest path = true ↔
      ∃ c s, path = c :: s ∧ c ≠ '/' ∧ test c = true ∧ rest s = true := by
  cases path <;> simp [afterOne, and_assoc]

/-! ## Elements -/

theorem accepts_nil : accepts [] path = true ↔ path = [] := List.isEmpty_iff

theorem accepts_literal {d : Char} :
    accepts (.literal d :: p) path = true ↔ ∃ s, path = d :: s ∧ accepts p s = true := by
  cases path <;> simp [accepts, and_assoc]

theorem accepts_anyChar :
    accepts (.anyChar :: p) path = true ↔ ∃ c s, path = c :: s ∧ c ≠ '/' ∧ accepts p s = true := by
  rw [accepts, afterOne_iff]
  simp

/-- A class with one member matches what the member does by itself, unless it is a slash. -/
theorem accepts_oneOf_single {d : Char} (hd : d ≠ '/') :
    accepts (.oneOf [.single d] :: p) path = true ↔ ∃ s, path = d :: s ∧ accepts p s = true := by
  rw [accepts, afterOne_iff]
  simp only [List.any_cons, List.any_nil, Bool.or_false, Member.holds, beq_iff_eq]
  constructor
  · rintro ⟨c, s, rfl, -, rfl, hs⟩
    exact ⟨s, rfl, hs⟩
  · rintro ⟨s, rfl, hs⟩
    exact ⟨d, s, rfl, hd, rfl, hs⟩

theorem accepts_anyRun :
    accepts (.anyRun :: p) path = true ↔
      ∃ run s, path = run ++ s ∧ '/' ∉ run ∧ accepts p s = true := afterRun_iff

theorem accepts_anyComponents :
    accepts (.anyComponents :: p) path = true ↔
      accepts p path = true ∨ (∃ lead s, path = lead ++ '/' :: s ∧ accepts p s = true) ∨
        accepts p [] = true := by
  rw [accepts, afterComponents, Bool.or_eq_true, afterSlash_iff]

/-- A recursive wildcard at the end of a pattern matches whatever is left. -/
theorem accepts_everything (path : Text) : accepts [.anyComponents] path = true :=
  accepts_anyComponents.mpr (.inr (.inr rfl))

end SourceBundle.Glob
