import SourceBundle.Proofs.Path.Canonical

/-!
# Sorts that may stop

`Path.sort` takes the paths one after the other and has a result for every list.  A sort by
comparison that is made for long lists need not.  Where the order is transitive it puts the paths in
order.  Where it is not, the sort may come to a result in an order of its own, with each path as often
as before, or notice that something is wrong and stop with a panic.  Only the paths of a short list
does it take one after the other.

A `Sorter` is any sort of which this is true, and what is shown for all of them holds of the one in
use, however it goes about long lists.  A list is settled when it is short or not tangled: there every
sorter has a result, and it is that of `Path.sort` (`Sorter.sort?_of_isSettled`).  Of other lists no
more is known than which paths are in a result, if there is one (`Sorter.mem_of_sort?`).

Two sorters mark the range.  One has a result for every list, that of `Path.sort`
(`Sorter.sort?_insertion`); one stops at every list that is not settled (`Sorter.isSome_cautious_iff`).
-/

namespace SourceBundle.Path

/-- Up to this number of paths a sort takes them one after the other. -/
def shortLength : Nat := 20

/-- The list is short, or the order is a total one on it. -/
def IsSettled (paths : List Text) : Prop := paths.length ≤ shortLength ∨ ¬ IsTangled paths

/-- A sort by the order of paths, which may stop without a result. -/
structure Sorter where
  /-- The paths in order, with their repeats, if the sort has a result. -/
  order? : List Text → Option (List Text)
  /-- A result has the paths of the list, each as often. -/
  perm {paths sorted : List Text} (h : order? paths = some sorted) : sorted.Perm paths
  /-- Where the order is transitive there is a result, and it is in order. -/
  ascending {paths : List Text} (h : IsTransitiveOn paths) :
    ∃ sorted, order? paths = some sorted ∧ sorted.Pairwise fun p q => (compare p q).isLE
  /-- The paths of a short list are taken one after the other. -/
  short {paths : List Text} (h : paths.length ≤ shortLength) :
    order? paths = some (sortBy (fun p q => compare p q == .lt) paths)

namespace Sorter

/-- The paths in order, each kept once among equal neighbours, if the sort has a result. -/
def sort? (sorter : Sorter) (paths : List Text) : Option (List Text) :=
  (sorter.order? paths).map dropRepeats

/-- The sort that takes the paths of every list one after the other. -/
def insertion : Sorter where
  order? paths := some (sortBy (fun p q => compare p q == .lt) paths)
  perm h := Option.some.inj h ▸ sortBy_perm _ _
  ascending h := ⟨_, rfl, h.pairwise_sortBy⟩
  short _ := rfl

@[simp] theorem sort?_insertion (paths : List Text) : insertion.sort? paths = some (sort paths) :=
  rfl

/-- The sort that first makes sure of the order and stops if there is none, unless the list is
short. -/
def cautious : Sorter where
  order? paths :=
    if paths.length ≤ shortLength ∨ IsTransitiveOn paths then
      some (sortBy (fun p q => compare p q == .lt) paths)
    else none
  perm h := by
    obtain ⟨-, h⟩ := Option.ite_none_right_eq_some.mp h
    exact Option.some.inj h ▸ sortBy_perm _ _
  ascending h := ⟨_, if_pos (.inr h), h.pairwise_sortBy⟩
  short h := if_pos (.inl h)

/-- No list but the settled ones can be counted on to have a result. -/
theorem isSome_cautious_iff {paths : List Text} :
    (cautious.sort? paths).isSome ↔ IsSettled paths := by
  simp [sort?, cautious, IsSettled, isTransitiveOn_iff]

section

variable {sorter : Sorter} {paths sorted : List Text}

/-- A result has the paths of the list and no others. -/
theorem mem_of_sort? (h : sorter.sort? paths = some sorted) {p : Text} :
    p ∈ sorted ↔ p ∈ paths := by
  obtain ⟨ordered, hordered, rfl⟩ := Option.map_eq_some_iff.mp h
  rw [mem_dropRepeats, (sorter.perm hordered).mem_iff]

/-- On a settled list the sorters agree with each other and have a result. -/
theorem sort?_of_isSettled (sorter : Sorter) (h : IsSettled paths) :
    sorter.sort? paths = some (sort paths) := by
  rcases h with hshort | huntangled
  · rw [sort?, sorter.short hshort, Option.map_some, sort]
  · have htrans := isTransitiveOn_iff.2 huntangled
    obtain ⟨ordered, hordered, hascending⟩ := sorter.ascending htrans
    have hsort : sorter.sort? paths = some (dropRepeats ordered) := by
      rw [sort?, hordered, Option.map_some]
    -- There is but one strictly ascending list of the paths.
    rw [hsort, eq_of_pairwise_lt (pairwise_lt_dropRepeats hascending) htrans.pairwise_sort]
    intro p
    rw [mem_of_sort? hsort, mem_sort]

end

end Sorter

/-- Files are settled, however many there are. -/
theorem Apart.isSettled {paths : List Text} (h : Apart paths) : IsSettled paths :=
  .inr (isTransitiveOn_iff.1 h.isTransitiveOn)

end SourceBundle.Path
