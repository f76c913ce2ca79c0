import SourceBundle.Comments.Catalog
import SourceBundle.Proofs.Comments.Scanning
import SourceBundle.Proofs.Text.Lines

/-!
# Comments are removed in place

Whatever the scanner recognises, it copies a character or leaves it out, and it leaves out no line
feed.  That is one property of a step (`thinned_apply`) and, by induction on the text, of a whole
run (`thinned_strip`): no branch of the scanner has to be looked at on its own, and a syntax may have
any quotes and marks.

A text that is thinned out in this way has its rows where they were, each with some characters less
(`Thinned.forall₂_rows`).  Trimming the ends of lines may take an empty last row away besides, so
every pass over a text costs it one row at most (`keepsRows_removeComments`).
-/

namespace SourceBundle.Comments

/-! ## Thinning out -/

/-- The first text is the second without some of its characters other than line feeds. -/
inductive Thinned : Text → Text → Prop
  | nil : Thinned [] []
  | keep (c : Char) {u t : Text} : Thinned u t → Thinned (c :: u) (c :: t)
  | drop {c : Char} {u t : Text} : c ≠ '\n' → Thinned u t → Thinned u (c :: t)

/-- Either fate copies a character or drops one that is no line feed. -/
theorem thinned_apply (fate : Fate) (c : Char) {u t : Text} (h : Thinned u t) :
    Thinned (fate.apply c ++ u) (c :: t) := by
  cases fate with
  | copied => exact .keep c h
  | erased =>
    by_cases hc : c = '\n'
    · rw [Fate.apply, if_pos hc]
      exact .keep c h
    · rw [Fate.apply, if_neg hc]
      exact .drop hc h

/-- The scanner thins out the text. -/
theorem thinned_strip (s : Syntax) (pending : Nat) (fate : Fate) (isBare : Bool) (t : Text) :
    Thinned (strip s pending fate isBare t) t := by
  induction t generalizing pending fate isBare with
  | nil =>
    rw [strip]
    exact .nil
  | cons c t ih =>
    cases pending with
    | succ pending =>
      rw [strip]
      exact thinned_apply fate c (ih _ _ _)
    | zero =>
      rw [strip]
      split
      · exact thinned_apply _ c (ih _ _ _)
      · exact .keep c (ih _ _ _)

/-- Thinning out a text leaves its rows where they are. -/
theorem Thinned.forall₂_rows {u t : Text} (h : Thinned u t) :
    List.Forall₂ List.Sublist (Text.rows u) (Text.rows t) := by
  induction h with
  | nil => exact .cons (.refl []) .nil
  | @keep c u t h ih =>
    by_cases hc : c = '\n'
    · subst hc
      rw [Text.rows, Text.rows, Text.pieces_cons_self, Text.pieces_cons_self]
      exact .cons (.refl []) ih
    · obtain ⟨row, rest, hu⟩ := Text.exists_pieces_eq_cons '\n' u
      obtain ⟨row', rest', ht⟩ := Text.exists_pieces_eq_cons '\n' t
      rw [Text.rows, Text.rows, hu, ht, List.forall₂_cons] at ih
      rw [Text.rows, Text.rows, Text.pieces_cons_of_ne hc hu, Text.pieces_cons_of_ne hc ht]
      exact .cons (ih.1.cons_cons c) ih.2
  | @drop c u t hc h ih =>
    obtain ⟨row, rest, hu⟩ := Text.exists_pieces_eq_cons '\n' u
    obtain ⟨row', rest', ht⟩ := Text.exists_pieces_eq_cons '\n' t
    rw [Text.rows, Text.rows, hu, ht, List.forall₂_cons] at ih
    rw [Text.rows, Text.rows, hu, Text.pieces_cons_of_ne hc ht]
    exact .cons (ih.1.cons c) ih.2

/-! ## Rows that stay -/

/-- Each row of `u` is part of the row of `t` with the same number and has no white space at its
end; of the rows of `t`, the last `missing` at most have none in `u`. -/
structure KeepsRows (missing : Nat) (t u : Text) : Prop where
  noMore : (Text.rows u).length ≤ (Text.rows t).length
  fewMissing : (Text.rows t).length ≤ (Text.rows u).length + missing
  rowwise : ∀ (k : Nat) (row : Text), (Text.rows u)[k]? = some row →
    Text.EndsSolid row ∧ ∃ original, (Text.rows t)[k]? = some original ∧ row.Sublist original

theorem KeepsRows.trans {m n : Nat} {t u v : Text} (h : KeepsRows m t u) (h' : KeepsRows n u v) :
    KeepsRows (m + n) t v where
  noMore := h'.noMore.trans h.noMore
  fewMissing := by
    have hu := h.fewMissing
    have hv := h'.fewMissing
    omega
  rowwise := by
    intro k row hrow
    obtain ⟨hsolid, middle, hmiddle, hsub⟩ := h'.rowwise k row hrow
    obtain ⟨-, original, horiginal, hsub'⟩ := h.rowwise k middle hmiddle
    exact ⟨hsolid, original, horiginal, hsub.trans hsub'⟩

/-- A list that another matches element by element has a matching element at every position. -/
theorem exists_getElem?_of_forall₂ {α β : Type _} {R : α → β → Prop} {xs : List α} {ys : List β}
    (h : List.Forall₂ R xs ys) {k : Nat} {x : α} (hx : xs[k]? = some x) :
    ∃ y, ys[k]? = some y ∧ R x y := by
  induction h generalizing k with
  | nil => cases hx
  | @cons a b xs ys hab _ ih =>
    cases k with
    | zero =>
      obtain rfl : a = x := by simpa using hx
      exact ⟨b, rfl, hab⟩
    | succ k => exact ih (by simpa using hx)

/-- Thinning out a text and trimming the ends of its lines takes away at most one row, the last. -/
theorem keepsRows_trimLineEnds {t u : Text} (h : Thinned u t) :
    KeepsRows 1 t (Text.trimLineEnds u) := by
  have hrows := h.forall₂_rows
  have hlength := hrows.length_eq
  rcases Text.forall₂_rows_trimLineEnds u with htrim | ⟨front, hfront, htrim⟩
  · have hsame := htrim.length_eq
    refine ⟨by omega, by omega, fun k row hrow => ?_⟩
    obtain ⟨middle, hmiddle, hsolid, hsub⟩ := exists_getElem?_of_forall₂ htrim hrow
    obtain ⟨original, horiginal, hsub'⟩ := exists_getElem?_of_forall₂ hrows hmiddle
    exact ⟨hsolid, original, horiginal, hsub.trans hsub'⟩
  · have hsame := htrim.length_eq
    have hlast : (Text.rows u).length = front.length + 1 := by
      rw [hfront, List.length_append, List.length_singleton]
    refine ⟨by omega, by omega, fun k row hrow => ?_⟩
    obtain ⟨middle, hmiddle, hsolid, hsub⟩ := exists_getElem?_of_forall₂ htrim hrow
    have hmiddle' : (Text.rows u)[k]? = some middle := by
      obtain ⟨hk, -⟩ := List.getElem?_eq_some_iff.1 hmiddle
      rw [hfront, List.getElem?_append_left hk, hmiddle]
    obtain ⟨original, horiginal, hsub'⟩ := exists_getElem?_of_forall₂ hrows hmiddle'
    exact ⟨hsolid, original, horiginal, hsub.trans hsub'⟩

/-! ## Removing comments -/

/-- One pass keeps all rows but perhaps an empty last one. -/
theorem keepsRows_removeComments (s : Syntax) (t : Text) : KeepsRows 1 t (s.removeComments t) :=
  keepsRows_trimLineEnds (thinned_strip s (shebangLength s t) .copied true t)

/-- Every pass of a remover costs a text one row at most. -/
theorem keepsRows_remover (first : Syntax) (rest : Remover) (t : Text) :
    KeepsRows (rest.length + 1) t (Remover.removeComments (first :: rest) t) := by
  induction rest generalizing first t with
  | nil => exact keepsRows_removeComments first t
  | cons next rest ih =>
    have hfirst := keepsRows_removeComments first t
    have hrest := ih next (first.removeComments t)
    have hboth := hfirst.trans hrest
    rw [Nat.add_comm 1] at hboth
    exact hboth

/-- **Comments are removed in place.**  By any syntax, removal keeps every row of a text but perhaps
the last where it is and only deletes characters from it.  Components, whose comments are removed by
two syntaxes, lose two rows at most. -/
theorem rows_of_removeComments (t : Text) :
    (∀ s : Syntax, KeepsRows 1 t (s.removeComments t)) ∧
      ∃ remover, removerOfExtension? "vue".toList = some remover ∧
        removerOfExtension? "svelte".toList = some remover ∧
        KeepsRows 2 t (remover.removeComments t) :=
  ⟨fun s => keepsRows_removeComments s t, [.markup, .cStyle], by decide, by decide,
    keepsRows_remover .markup [.cStyle] t⟩

end SourceBundle.Comments
