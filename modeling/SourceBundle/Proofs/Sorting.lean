import Mathlib.Data.List.Chain
import Mathlib.Data.List.Perm.Basic
import SourceBundle.Sorting

/-!
# Sorted lists are in order

`sortBy` gives a permutation of its list for any relation.  Where the relation is the strict part
of a total preorder, so that no element precedes one that precedes it and being "not before" is
transitive, no element of the result precedes one to its left.

Without its repeats such a list is strictly ascending (`pairwise_dropRepeats`), and a strictly
ascending list is determined by its elements (`eq_of_pairwise_lt`).  Sorting asks the relation about
elements of the list only (`sortBy_congr`), so it is enough that the relation is a total order there
(`pairwise_sortBy_of_mem`).

Where the relation is no such order, the result depends on the order in which the elements come:
those that come first keep among themselves the order in which they are sorted alone
(`sortBy_sublist_append`).
-/

namespace SourceBundle

section Ordered

variable {α : Type _} {precedes : α → α → Bool}
  (asymm : ∀ a b, precedes a b = true → precedes b a = false)
  (trans : ∀ a b c, precedes a b = false → precedes b c = false → precedes a c = false)

include asymm trans

/-- Insertion keeps the list of the elements so far in descending order. -/
theorem pairwise_insertDown (x : α) (sorted : List α)
    (h : sorted.Pairwise fun a b => precedes a b = false) :
    (insertDown precedes x sorted).Pairwise fun a b => precedes a b = false := by
  induction sorted with
  | nil => exact List.pairwise_singleton _ _
  | cons y ys ih =>
    obtain ⟨hy, hys⟩ := List.pairwise_cons.mp h
    unfold insertDown
    split
    · rename_i before
      refine List.pairwise_cons.mpr ⟨?_, ih hys⟩
      intro z hz
      rcases List.mem_cons.mp ((insertDown_perm precedes x ys).mem_iff.mp hz) with rfl | hz
      · exact asymm z y before
      · exact hy z hz
    · rename_i notBefore
      have hxy : precedes x y = false := Bool.eq_false_iff.mpr notBefore
      refine List.pairwise_cons.mpr ⟨?_, h⟩
      intro z hz
      rcases List.mem_cons.mp hz with rfl | hz
      · exact hxy
      · exact trans x y z hxy (hy z hz)

theorem pairwise_foldl_insertDown (xs sorted : List α)
    (h : sorted.Pairwise fun a b => precedes a b = false) :
    (xs.foldl (fun sorted x => insertDown precedes x sorted) sorted).Pairwise
      fun a b => precedes a b = false := by
  induction xs generalizing sorted with
  | nil => exact h
  | cons x xs ih => exact ih _ (pairwise_insertDown asymm trans x sorted h)

/-- No element of the sorted list precedes one to its left. -/
theorem pairwise_sortBy (xs : List α) :
    (sortBy precedes xs).Pairwise fun a b => precedes b a = false := by
  unfold sortBy
  rw [List.pairwise_reverse]
  exact pairwise_foldl_insertDown asymm trans xs [] .nil

end Ordered

/-- Sorting by a number puts the numbers in order. -/
theorem pairwise_sortBy_key {α : Type _} (key : α → Nat) (xs : List α) :
    (sortBy (fun a b => key a < key b) xs).Pairwise fun a b => key a ≤ key b := by
  have ordered : (sortBy (fun a b => decide (key a < key b)) xs).Pairwise
      fun a b => decide (key b < key a) = false := by
    apply pairwise_sortBy
    · intro a b h
      simp only [decide_eq_true_eq, decide_eq_false_iff_not] at h ⊢
      omega
    · intro a b c h h'
      simp only [decide_eq_false_iff_not] at h h' ⊢
      omega
  exact ordered.imp fun h => Nat.not_lt.mp (of_decide_eq_false h)

/-! ## Repeats -/

theorem mem_dropRepeats {α : Type _} [BEq α] [LawfulBEq α] {xs : List α} {a : α} :
    a ∈ dropRepeats xs ↔ a ∈ xs := by
  fun_induction dropRepeats xs with
  | case1 => rfl
  | case2 x => rfl
  | case3 x y rest same ih =>
    obtain rfl : x = y := eq_of_beq same
    rw [ih]
    simp
  | case4 x y rest other ih => rw [List.mem_cons, ih, List.mem_cons (l := y :: rest)]

theorem dropRepeats_sublist {α : Type _} [BEq α] (xs : List α) : (dropRepeats xs).Sublist xs := by
  fun_induction dropRepeats xs with
  | case1 => exact .slnil
  | case2 x => exact .refl _
  | case3 x y rest same ih => exact ih.cons x
  | case4 x y rest other ih => exact ih.cons_cons x

/-- In a list that is in order equal elements are neighbours, so without repeats its elements are
different. -/
theorem pairwise_dropRepeats {α : Type _} [BEq α] [LawfulBEq α] {le : α → α → Prop}
    (antisymm : ∀ a b, le a b → le b a → a = b) {xs : List α} (h : xs.Pairwise le) :
    (dropRepeats xs).Pairwise fun a b => le a b ∧ a ≠ b := by
  fun_induction dropRepeats xs with
  | case1 => exact .nil
  | case2 x => exact List.pairwise_singleton _ _
  | case3 x y rest same ih => exact ih h.tail
  | case4 x y rest other ih =>
    obtain ⟨hx, hrest⟩ := List.pairwise_cons.mp h
    refine List.pairwise_cons.mpr ⟨fun z hz => ?_, ih hrest⟩
    rw [mem_dropRepeats] at hz
    refine ⟨hx z hz, ?_⟩
    rintro rfl
    have hxy : x ≠ y := fun same => other (beq_iff_eq.2 same)
    rcases List.mem_cons.mp hz with same | hz
    · exact hxy same
    · have hyx : le y x := (List.pairwise_cons.mp hrest).1 x hz
      exact hxy (antisymm x y (hx y List.mem_cons_self) hyx)

theorem dropRepeats_of_nodup {α : Type _} [BEq α] [LawfulBEq α] {xs : List α} (h : xs.Nodup) :
    dropRepeats xs = xs := by
  fun_induction dropRepeats xs with
  | case1 => rfl
  | case2 x => rfl
  | case3 x y rest same ih =>
    obtain rfl : x = y := eq_of_beq same
    exact absurd List.mem_cons_self (List.nodup_cons.mp h).1
  | case4 x y rest other ih => rw [ih h.of_cons]

/-! ## Total orders -/

section Comparisons

variable {α β : Type _} (cmp : β → β → Ordering)

/-- Elements may be compared by something that is computed from them. -/
theorem transCmp_on [Std.TransCmp cmp] (f : α → β) : Std.TransCmp fun a b => cmp (f a) (f b) where
  eq_swap := Std.OrientedCmp.eq_swap
  isLE_trans := Std.TransCmp.isLE_trans

theorem lawfulEqCmp_on [Std.LawfulEqCmp cmp] {f : α → β} (hf : Function.Injective f) :
    Std.LawfulEqCmp fun a b => cmp (f a) (f b) where
  compare_self := Std.ReflCmp.compare_self
  eq_of_compare h := hf (Std.LawfulEqCmp.eq_of_compare h)

variable {cmp}

theorem lt_of_isLE_of_ne [Std.LawfulEqCmp cmp] {a b : β} (h : (cmp a b).isLE) (hne : a ≠ b) :
    cmp a b = .lt := by
  cases horder : cmp a b with
  | lt => rfl
  | eq => exact absurd (Std.LawfulEqCmp.eq_of_compare horder) hne
  | gt => simp [horder] at h

end Comparisons

/-! ## One list for a set of elements -/

section Ascending

variable {α : Type _} {cmp : α → α → Ordering} [Std.OrientedCmp cmp] {xs ys : List α}

theorem nodup_of_pairwise_lt (h : xs.Pairwise fun a b => cmp a b = .lt) : xs.Nodup := by
  refine h.imp fun {a b} hab => ?_
  rintro rfl
  have hself : cmp a a = .eq := Std.ReflCmp.compare_self
  rw [hself] at hab
  cases hab

/-- Strictly ascending lists with the same elements are equal. -/
theorem eq_of_pairwise_lt (hxs : xs.Pairwise fun a b => cmp a b = .lt)
    (hys : ys.Pairwise fun a b => cmp a b = .lt) (same : ∀ a, a ∈ xs ↔ a ∈ ys) : xs = ys := by
  have hperm : xs.Perm ys :=
    (List.perm_ext_iff_of_nodup (nodup_of_pairwise_lt hxs) (nodup_of_pairwise_lt hys)).2 same
  refine hperm.eq_of_pairwise (fun a b _ _ hab hba => ?_) hxs hys
  exact absurd hba (Std.OrientedCmp.not_lt_of_lt hab)

end Ascending

/-- Different elements stand in one order only. -/
theorem not_sublist_swap {α : Type _} {xs : List α} (h : xs.Nodup) {a b : α}
    (hab : [a, b].Sublist xs) : ¬ [b, a].Sublist xs := by
  intro hba
  induction xs with
  | nil => cases hab
  | cons x xs ih =>
    obtain ⟨hx, hxs⟩ := List.nodup_cons.mp h
    cases hab with
    | cons _ hab =>
      cases hba with
      | cons _ hba => exact ih hxs hab hba
      | cons_cons _ hba => exact hx (hab.subset (List.mem_cons_of_mem _ List.mem_cons_self))
    | cons_cons _ hb =>
      cases hba with
      | cons _ hba => exact hx (hba.subset (List.mem_cons_of_mem _ List.mem_cons_self))
      | cons_cons _ ha => exact hx (ha.subset List.mem_cons_self)

/-- Insertion asks the relation only about the new element and those that are there. -/
theorem insertDown_congr {α : Type _} {f g : α → α → Bool} {x : α} {sorted : List α}
    (same : ∀ y ∈ sorted, f x y = g x y) : insertDown f x sorted = insertDown g x sorted := by
  induction sorted with
  | nil => rfl
  | cons y ys ih =>
    rw [insertDown, insertDown, same y List.mem_cons_self,
      ih fun z hz => same z (List.mem_cons_of_mem y hz)]

theorem foldl_insertDown_congr {α : Type _} {f g : α → α → Bool} {xs sorted : List α}
    (same : ∀ x ∈ xs, ∀ y, y ∈ xs ∨ y ∈ sorted → f x y = g x y) :
    xs.foldl (fun sorted x => insertDown f x sorted) sorted =
      xs.foldl (fun sorted x => insertDown g x sorted) sorted := by
  induction xs generalizing sorted with
  | nil => rfl
  | cons x xs ih =>
    have hx : insertDown f x sorted = insertDown g x sorted :=
      insertDown_congr fun y hy => same x List.mem_cons_self y (.inr hy)
    rw [List.foldl_cons, List.foldl_cons, hx]
    refine ih fun z hz y hy => same z (List.mem_cons_of_mem x hz) y ?_
    rcases hy with hy | hy
    · exact .inl (List.mem_cons_of_mem x hy)
    · rcases List.mem_cons.mp ((insertDown_perm g x sorted).mem_iff.mp hy) with rfl | hy
      · exact .inl List.mem_cons_self
      · exact .inr hy

/-- Relations that agree on the elements of a list sort it alike. -/
theorem sortBy_congr {α : Type _} {f g : α → α → Bool} {xs : List α}
    (same : ∀ x ∈ xs, ∀ y ∈ xs, f x y = g x y) : sortBy f xs = sortBy g xs := by
  rw [sortBy, sortBy, foldl_insertDown_congr]
  intro x hx y hy
  exact same x hx y (hy.resolve_right List.not_mem_nil)

/-- Sorting by a total order gives an ascending list. -/
theorem pairwise_sortBy_isLE {α : Type _} (cmp : α → α → Ordering) [Std.TransCmp cmp]
    (xs : List α) : (sortBy (fun a b => cmp a b == .lt) xs).Pairwise fun a b => (cmp a b).isLE := by
  have ordered : (sortBy (fun a b => cmp a b == .lt) xs).Pairwise
      fun a b => (cmp b a == .lt) = false := pairwise_sortBy ?_ ?_ xs
  · refine ordered.imp fun {a b} h => ?_
    rw [beq_eq_false_iff_ne, Ne, ← Ordering.isGE_iff_ne_lt] at h
    exact Std.OrientedCmp.isGE_iff_isLE.1 h
  · intro a b h
    rw [beq_iff_eq] at h
    rw [beq_eq_false_iff_ne]
    exact Std.OrientedCmp.not_lt_of_lt h
  · intro a b c hab hbc
    rw [beq_eq_false_iff_ne, Ne, ← Ordering.isGE_iff_ne_lt] at *
    exact Std.TransCmp.isGE_trans hab hbc

/-! ## Insertion one by one -/

section Histories

variable {α β : Type _}

theorem sublist_insertDown (precedes : α → α → Bool) (x : α) (sorted : List α) :
    sorted.Sublist (insertDown precedes x sorted) := by
  induction sorted with
  | nil => exact List.nil_sublist _
  | cons y ys ih =>
    rw [insertDown]
    split
    · exact ih.cons_cons y
    · exact List.sublist_cons_self x (y :: ys)

theorem sublist_foldl_insertDown (precedes : α → α → Bool) (xs sorted : List α) :
    sorted.Sublist (xs.foldl (fun sorted x => insertDown precedes x sorted) sorted) := by
  induction xs generalizing sorted with
  | nil => exact List.Sublist.refl _
  | cons x xs ih => exact (sublist_insertDown precedes x sorted).trans (ih _)

/-- Elements that come later are put between those that are sorted already. -/
theorem sortBy_sublist_append (precedes : α → α → Bool) (xs ys : List α) :
    (sortBy precedes xs).Sublist (sortBy precedes (xs ++ ys)) := by
  rw [sortBy, sortBy, List.foldl_append]
  exact (sublist_foldl_insertDown precedes ys _).reverse

theorem foldl_insertDown_of_isChain {precedes : α → α → Bool} {xs sorted : List α}
    (h : (sorted.reverse ++ xs).IsChain fun a b => precedes b a = false) :
    xs.foldl (fun sorted x => insertDown precedes x sorted) sorted = xs.reverse ++ sorted := by
  induction xs generalizing sorted with
  | nil => rfl
  | cons x xs ih =>
    have hinsert : insertDown precedes x sorted = x :: sorted := by
      cases sorted with
      | nil => rfl
      | cons y ys =>
        have hxy : precedes x y = false := by
          rw [List.reverse_cons, List.append_assoc, List.singleton_append,
            List.isChain_append_cons_cons] at h
          exact h.2.1
        rw [insertDown, hxy, if_neg Bool.false_ne_true]
    rw [List.foldl_cons, hinsert, ih (by rwa [List.reverse_cons, List.append_assoc]),
      List.reverse_cons, List.append_assoc]
    rfl

/-- A list in which no element precedes the one before it stays as it is. -/
theorem sortBy_of_isChain {precedes : α → α → Bool} {xs : List α}
    (h : xs.IsChain fun a b => precedes b a = false) : sortBy precedes xs = xs := by
  rw [sortBy, foldl_insertDown_of_isChain h, List.append_nil, List.reverse_reverse]

theorem insertDown_map (precedes : β → β → Bool) (f : α → β) (x : α) (sorted : List α) :
    insertDown precedes (f x) (sorted.map f) =
      (insertDown (fun a b => precedes (f a) (f b)) x sorted).map f := by
  induction sorted with
  | nil => rfl
  | cons y ys ih =>
    rw [List.map_cons, insertDown, insertDown, ih]
    split
    · rw [List.map_cons]
    · rw [List.map_cons, List.map_cons]

theorem foldl_insertDown_map (precedes : β → β → Bool) (f : α → β) (xs sorted : List α) :
    (xs.map f).foldl (fun sorted x => insertDown precedes x sorted) (sorted.map f) =
      (xs.foldl (fun sorted x => insertDown (fun a b => precedes (f a) (f b)) x sorted)
        sorted).map f := by
  induction xs generalizing sorted with
  | nil => rfl
  | cons x xs ih => rw [List.map_cons, List.foldl_cons, List.foldl_cons, insertDown_map, ih]

/-- Elements may be sorted by something that is computed from them. -/
theorem sortBy_map (precedes : β → β → Bool) (f : α → β) (xs : List α) :
    sortBy precedes (xs.map f) = (sortBy (fun a b => precedes (f a) (f b)) xs).map f := by
  rw [sortBy, sortBy, List.map_reverse, ← foldl_insertDown_map, List.map_nil]

end Histories

/-- It is enough that the relation is a total order on the elements of the list. -/
theorem pairwise_sortBy_of_mem {α : Type _} {precedes : α → α → Bool} {xs : List α}
    (asymm : ∀ a ∈ xs, ∀ b ∈ xs, precedes a b = true → precedes b a = false)
    (trans : ∀ a ∈ xs, ∀ b ∈ xs, ∀ c ∈ xs,
      precedes a b = false → precedes b c = false → precedes a c = false) :
    (sortBy precedes xs).Pairwise fun a b => precedes b a = false := by
  have hmembers : (sortBy (fun a b : { x // x ∈ xs } => precedes a b) xs.attach).Pairwise
      fun a b : { x // x ∈ xs } => precedes b a = false := by
    apply pairwise_sortBy
    · exact fun a b => asymm a a.2 b b.2
    · exact fun a b c => trans a a.2 b b.2 c c.2
  have hsort := sortBy_map precedes Subtype.val xs.attach
  rw [List.attach_map_subtype_val] at hsort
  rw [hsort]
  exact List.pairwise_map.mpr hmembers

end SourceBundle
