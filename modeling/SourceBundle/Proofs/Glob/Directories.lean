import SourceBundle.Path.Order
import SourceBundle.Proofs.Glob.Matching
import SourceBundle.Proofs.Glob.PatternSets
import SourceBundle.Proofs.Text.Pieces

/-!
# Patterns for all that lies in a directory

A name without wildcards and brackets stands for itself in a pattern text (`tokensAfter_verbatim`),
and its elements match the name and nothing else (`accepts_verbatim`).  So the pattern text that
names all below a directory at any depth accepts exactly the paths that lead through a directory of
that name (`acceptsFile_anywhereBelow`).
-/

namespace SourceBundle.Glob

/-! ## Texts that stand for themselves -/

/-- The text has no character with a meaning of its own in patterns. -/
def IsVerbatim (t : Text) : Prop := ∀ c ∈ t, c ≠ '*' ∧ c ≠ '?' ∧ c ≠ '['

instance (t : Text) : Decidable (IsVerbatim t) := List.decidableBAll _ t

/-- The elements that match a text and nothing else. -/
def verbatim (t : Text) : Pattern := t.map .literal

theorem tokensAfter_verbatim {t : Text} (h : IsVerbatim t) (prev : Option Char) (rest : Text) :
    tokensAfter prev (t ++ '/' :: rest) =
      (tokensAfter (some '/') rest).map fun p => verbatim (t ++ ['/']) ++ p := by
  induction t generalizing prev with
  | nil => exact tokensAfter_literal (by decide) (by decide) (by decide) prev rest
  | cons c t ih =>
    obtain ⟨⟨hstar, hmark, hbracket⟩, ht⟩ := List.forall_mem_cons.mp h
    rw [List.cons_append, tokensAfter_literal hstar hmark hbracket, ih ht]
    cases tokensAfter (some '/') rest <;> rfl

theorem accepts_verbatim {t path : Text} {p : Pattern} :
    accepts (verbatim t ++ p) path = true ↔ ∃ rest, path = t ++ rest ∧ accepts p rest = true := by
  induction t generalizing path with
  | nil => simp [verbatim]
  | cons c t ih =>
    have hcons : verbatim (c :: t) ++ p = .literal c :: (verbatim t ++ p) := rfl
    rw [hcons, accepts_literal]
    constructor
    · rintro ⟨s, rfl, hs⟩
      obtain ⟨rest, rfl, hrest⟩ := ih.mp hs
      exact ⟨rest, rfl, hrest⟩
    · rintro ⟨rest, rfl, hrest⟩
      exact ⟨t ++ rest, rfl, ih.mpr ⟨rest, rfl, hrest⟩⟩

/-! ## What lies in a directory -/

/-- An element that is not the last one has others behind it. -/
theorem exists_of_mem_dropLast {α : Type _} {a : α} {xs : List α} (h : a ∈ xs.dropLast) :
    ∃ above below, below ≠ [] ∧ xs = above ++ a :: below := by
  cases xs using List.reverseRecOn with
  | nil => cases h
  | append_singleton front last =>
    rw [List.dropLast_concat] at h
    obtain ⟨above, below, rfl⟩ := List.append_of_mem h
    exact ⟨above, below ++ [last], List.concat_ne_nil last below, by simp⟩

/-- A path leads through a directory of the given name when the name stands in front, or behind a
slash, and a slash behind it. -/
theorem mem_dropLast_components {name path : Text} (h : '/' ∉ name) :
    name ∈ (Path.components path).dropLast ↔
      (∃ rest, path = name ++ '/' :: rest) ∨
        ∃ lead rest, path = lead ++ '/' :: (name ++ '/' :: rest) := by
  constructor
  · intro hname
    obtain ⟨above, below, hbelow, hnames⟩ := exists_of_mem_dropLast hname
    have hpath : Text.join ['/'] (above ++ name :: below) = path := by
      rw [← hnames]
      exact Text.join_pieces '/' path
    have hdir : Text.join ['/'] (name :: below) = name ++ '/' :: Text.join ['/'] below := by
      rw [Text.join_cons hbelow]
      simp
    by_cases habove : above = []
    · rw [habove, List.nil_append, hdir] at hpath
      exact .inl ⟨_, hpath.symm⟩
    · rw [Text.join_append habove (List.cons_ne_nil name below), hdir] at hpath
      rw [List.append_assoc, List.singleton_append] at hpath
      exact .inr ⟨_, _, hpath.symm⟩
  · have hdir : ∀ rest, Path.components (name ++ '/' :: rest) = name :: Path.components rest :=
      Text.pieces_append_cons h
    have hne : ∀ rest, Path.components rest ≠ [] := Text.pieces_ne_nil '/'
    rintro (⟨rest, rfl⟩ | ⟨lead, rest, rfl⟩)
    · rw [hdir, List.dropLast_cons_of_ne_nil (hne rest)]
      exact List.mem_cons_self
    · have hlead : Path.components (lead ++ '/' :: (name ++ '/' :: rest)) =
          Path.components lead ++ name :: Path.components rest := by
        rw [← hdir]
        exact Text.pieces_append lead _
      rw [hlead, List.dropLast_append_of_ne_nil (List.cons_ne_nil _ _),
        List.dropLast_cons_of_ne_nil (hne rest)]
      exact List.mem_append_right _ List.mem_cons_self

/-- The pattern text for all that lies in a directory of the given name, wherever it is. -/
def anywhereBelow (name : Text) : Text := ['*', '*', '/'] ++ name ++ ['/', '*', '*']

/-- The pattern for a directory of the given name accepts the files with such a directory on the way
to them. -/
theorem acceptsFile_anywhereBelow {name path : Text} (hname : IsVerbatim name)
    (hslash : '/' ∉ name) :
    acceptsFile (anywhereBelow name) path = true ↔ name ∈ (Path.components path).dropLast := by
  have hforms : (PatternSet.forms (anywhereBelow name)).1 = anywhereBelow name := by
    rw [PatternSet.forms, anywhereBelow, Text.before?_append]
  have htokens : tokensAfter none (anywhereBelow name) =
      .ok (.anyComponents :: (verbatim (name ++ ['/']) ++ [.anyComponents])) := by
    have hrest := tokensAfter_verbatim hname (some '/') ['*', '*']
    have hopen : opensComponent none = true := rfl
    rw [anywhereBelow, List.append_assoc]
    simp only [List.cons_append, List.nil_append, tokensAfter, hopen, if_true, hrest]
    rfl
  have hbelow : ∀ t, accepts (verbatim (name ++ ['/']) ++ [.anyComponents]) t = true ↔
      ∃ rest, t = name ++ '/' :: rest := by
    intro t
    simp [accepts_verbatim, accepts_everything]
  rw [acceptsFile, hforms, matchesText, htokens, mem_dropLast_components hslash]
  simp only [accepts_anyComponents, hbelow]
  refine or_congr_right ?_
  constructor
  · rintro (⟨lead, _, rfl, rest, rfl⟩ | ⟨rest, hrest⟩)
    · exact ⟨lead, rest, rfl⟩
    · exact absurd hrest (by simp)
  · rintro ⟨lead, rest, rfl⟩
    exact .inl ⟨lead, _, rfl, rest, rfl⟩

end SourceBundle.Glob
