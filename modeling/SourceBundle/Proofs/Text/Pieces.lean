import SourceBundle.Text.Basic

/-!
# Pieces

Joining undoes splitting for every list (`join_pieces`).  Here is the other direction: splitting
undoes joining as long as there is a piece and no piece holds the separator (`pieces_join`), which
is true of whatever splitting gives (`not_mem_of_mem_pieces`).  So lists without a separator and the
one list that they make when joined determine each other, be they the rows of a text or the names of
a path.
-/

namespace SourceBundle.Text

variable {α : Type _} [DecidableEq α] {sep : α} {t u piece : List α}

theorem pieces_cons_self (t : List α) : pieces sep (sep :: t) = [] :: pieces sep t := by
  rw [pieces, if_pos rfl]

theorem pieces_cons_of_ne {c : α} (hc : c ≠ sep) {rest : List (List α)}
    (h : pieces sep t = piece :: rest) : pieces sep (c :: t) = (c :: piece) :: rest := by
  rw [pieces, if_neg hc, h]

/-- A list has a first piece. -/
theorem exists_pieces_eq_cons (sep : α) (t : List α) :
    ∃ piece rest, pieces sep t = piece :: rest :=
  List.exists_cons_of_ne_nil (pieces_ne_nil sep t)

/-- No piece holds the separator. -/
theorem not_mem_of_mem_pieces (h : piece ∈ pieces sep t) : sep ∉ piece := by
  induction t generalizing piece with
  | nil =>
    obtain rfl : piece = [] := by simpa [pieces] using h
    exact List.not_mem_nil
  | cons c t ih =>
    by_cases hc : c = sep
    · rw [hc, pieces_cons_self] at h
      rcases List.mem_cons.mp h with rfl | h
      · exact List.not_mem_nil
      · exact ih h
    · obtain ⟨first, rest, hfirst⟩ := exists_pieces_eq_cons sep t
      rw [pieces_cons_of_ne hc hfirst] at h
      rw [hfirst] at ih
      rcases List.mem_cons.mp h with rfl | h
      · have hnot : sep ∉ first := ih List.mem_cons_self
        simpa [Ne.symm hc] using hnot
      · exact ih (List.mem_cons_of_mem first h)

theorem infix_join {α : Type _} {between piece : List α} {ps : List (List α)} (h : piece ∈ ps) :
    piece <:+: join between ps := by
  induction ps with
  | nil => cases h
  | cons p ps ih =>
    by_cases hps : ps = []
    · obtain rfl : piece = p := by simpa [hps] using h
      rw [hps]
      exact List.infix_rfl
    · rw [join_cons hps]
      rcases List.mem_cons.mp h with rfl | h
      · rw [List.append_assoc]
        exact (List.prefix_append piece _).isInfix
      · exact (ih h).trans (List.suffix_append _ _).isInfix

/-- A piece is a stretch of its list. -/
theorem infix_of_mem_pieces (h : piece ∈ pieces sep t) : piece <:+: t := by
  have hjoin : piece <:+: join [sep] (pieces sep t) := infix_join h
  rwa [join_pieces] at hjoin

theorem pieces_of_not_mem (h : sep ∉ piece) : pieces sep piece = [piece] := by
  induction piece with
  | nil => rfl
  | cons c piece ih =>
    have hc : c ≠ sep := (List.ne_of_not_mem_cons h).symm
    exact pieces_cons_of_ne hc (ih (List.not_mem_of_not_mem_cons h))

/-- The first separator ends the first piece. -/
theorem pieces_append_cons (h : sep ∉ piece) (t : List α) :
    pieces sep (piece ++ sep :: t) = piece :: pieces sep t := by
  induction piece with
  | nil => exact pieces_cons_self t
  | cons c piece ih =>
    have hc : c ≠ sep := (List.ne_of_not_mem_cons h).symm
    exact pieces_cons_of_ne hc (ih (List.not_mem_of_not_mem_cons h))

/-- A separator between two lists keeps their pieces apart. -/
theorem pieces_append (t u : List α) :
    pieces sep (t ++ sep :: u) = pieces sep t ++ pieces sep u := by
  induction t with
  | nil => exact pieces_cons_self u
  | cons c t ih =>
    by_cases hc : c = sep
    · subst hc
      rw [List.cons_append, pieces_cons_self, pieces_cons_self, ih, List.cons_append]
    · obtain ⟨piece, rest, ht⟩ := exists_pieces_eq_cons sep t
      rw [ht] at ih
      rw [pieces_cons_of_ne hc ht]
      exact pieces_cons_of_ne hc ih

theorem join_append {α : Type _} {between : List α} {ps qs : List (List α)} (hps : ps ≠ [])
    (hqs : qs ≠ []) : join between (ps ++ qs) = join between ps ++ between ++ join between qs := by
  induction ps with
  | nil => exact absurd rfl hps
  | cons p ps ih =>
    by_cases hnil : ps = []
    · rw [hnil]
      exact join_cons hqs
    · rw [List.cons_append, join_cons (List.append_ne_nil_of_left_ne_nil hnil qs), ih hnil,
        join_cons hnil]
      simp

/-- The pieces hold everything but the separators. -/
theorem flatten_pieces (t : List α) : (pieces sep t).flatten = t.filter (· ≠ sep) := by
  induction t with
  | nil => rfl
  | cons c t ih =>
    by_cases hc : c = sep
    · rw [hc, pieces_cons_self, List.flatten_cons, List.nil_append, ih,
        List.filter_cons_of_neg (by simp)]
    · obtain ⟨piece, rest, ht⟩ := exists_pieces_eq_cons sep t
      rw [ht] at ih
      rw [pieces_cons_of_ne hc ht, List.filter_cons_of_pos (by simpa using hc), ← ih]
      rfl

/-- Where no piece is empty, the list does not start with a separator. -/
theorem head?_ne_of_pieces (h : [] ∉ pieces sep t) : t.head? ≠ some sep := by
  intro hhead
  obtain ⟨u, rfl⟩ := List.head?_eq_some_iff.mp hhead
  rw [pieces_cons_self] at h
  exact h List.mem_cons_self

/-- Where no piece is empty, the list does not end with a separator. -/
theorem getLast?_ne_of_pieces (h : [] ∉ pieces sep t) : t.getLast? ≠ some sep := by
  intro hlast
  obtain ⟨u, rfl⟩ := List.getLast?_eq_some_iff.mp hlast
  rw [pieces_append] at h
  exact h (List.mem_append_right _ List.mem_cons_self)

/-- Joining piece by piece gives what joining all pieces at once does. -/
theorem join_map_join {α : Type _} {between : List α} {pss : List (List (List α))}
    (h : [] ∉ pss) : join between (pss.map (join between)) = join between pss.flatten := by
  induction pss with
  | nil => rfl
  | cons ps pss ih =>
    have hps : ps ≠ [] := (List.ne_of_not_mem_cons h).symm
    have hpss := List.not_mem_of_not_mem_cons h
    by_cases hnil : pss = []
    · rw [hnil]
      simp [join]
    · have hflat : pss.flatten ≠ [] := by
        obtain ⟨qs, rest, rfl⟩ := List.exists_cons_of_ne_nil hnil
        exact List.append_ne_nil_of_left_ne_nil (List.ne_of_not_mem_cons hpss).symm _
      rw [List.map_cons, join_cons (by simpa using hnil), ih hpss, List.flatten_cons,
        join_append hps hflat]

/-- Splitting undoes joining. -/
theorem pieces_join {ps : List (List α)} (hne : ps ≠ []) (h : ∀ p ∈ ps, sep ∉ p) :
    pieces sep (join [sep] ps) = ps := by
  induction ps with
  | nil => exact absurd rfl hne
  | cons p ps ih =>
    have hp : sep ∉ p := h p List.mem_cons_self
    by_cases hps : ps = []
    · subst hps
      exact pieces_of_not_mem hp
    · have hrest := ih hps fun q hq => h q (List.mem_cons_of_mem p hq)
      rw [join_cons hps, List.append_assoc, List.singleton_append, pieces_append_cons hp, hrest]

/-- A list is determined by its pieces. -/
theorem pieces_injective (sep : α) : Function.Injective (pieces sep) := fun t u h => by
  rw [← join_pieces sep t, h, join_pieces]

end SourceBundle.Text
