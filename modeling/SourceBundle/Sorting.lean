/-!
# Stable sorting

Lists are sorted by taking their elements one after the other and moving each to the left past
the sorted elements that it precedes.  Elements of which neither precedes the other keep their
relative order.  Where `precedes` is the strict part of a total order the result is the sorted
permutation of the list, which is that of every stable sort; for any other relation it is still a
permutation (`sortBy_perm`), the one that this procedure gives.

For relations of the latter kind this is one sort among others.  A sort by comparison that is made
for long lists takes the elements one after the other only up to a length of 20.  Of a longer list it
promises no order where the relation is none: it may give the elements in some other order, or stop
with a panic when it notices.  What is shown with `sortBy` about such lists is shown of this procedure.
-/

namespace SourceBundle

variable {α : Type _}

/-- Puts `x` into a list that runs from the last element of the order down. -/
def insertDown (precedes : α → α → Bool) (x : α) : List α → List α
  | [] => [x]
  | y :: ys => if precedes x y then y :: insertDown precedes x ys else x :: y :: ys

/-- The list in the order of `precedes`. -/
def sortBy (precedes : α → α → Bool) (xs : List α) : List α :=
  (xs.foldl (fun sorted x => insertDown precedes x sorted) []).reverse

/-- The list without the elements that equal the one right before them. -/
def dropRepeats [BEq α] : List α → List α
  | [] => []
  | [x] => [x]
  | x :: y :: rest => if x == y then dropRepeats (y :: rest) else x :: dropRepeats (y :: rest)

theorem insertDown_perm (precedes : α → α → Bool) (x : α) (xs : List α) :
    (insertDown precedes x xs).Perm (x :: xs) := by
  induction xs with
  | nil => exact .refl _
  | cons y ys ih =>
    unfold insertDown
    split
    · exact (ih.cons y).trans (.swap x y ys)
    · exact .refl _

theorem foldl_insertDown_perm (precedes : α → α → Bool) (xs sorted : List α) :
    (xs.foldl (fun sorted x => insertDown precedes x sorted) sorted).Perm (xs ++ sorted) := by
  induction xs generalizing sorted with
  | nil => exact .refl _
  | cons x xs ih =>
    refine (ih _).trans (((insertDown_perm precedes x sorted).append_left xs).trans ?_)
    exact List.perm_middle

/-- Sorting neither loses nor adds an element. -/
theorem sortBy_perm (precedes : α → α → Bool) (xs : List α) :
    (sortBy precedes xs).Perm xs := by
  have h := foldl_insertDown_perm precedes xs []
  rw [List.append_nil] at h
  exact (List.reverse_perm _).trans h

end SourceBundle
