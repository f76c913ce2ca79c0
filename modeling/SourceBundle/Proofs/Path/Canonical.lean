import Mathlib.Data.List.Perm.Subperm
import SourceBundle.Proofs.Path.Order

/-!
# Lists of paths with one order

Of two different paths one always comes before the other, but a path may come before a second one,
this before a third, and the third before the first.  A list of paths has one order, in which
sorting puts it whatever order it comes in, exactly when there are no three such paths in it
(`sort_perm_iff`).

In the lists of files of a search there are none, since no path continues another
(`sort_canonical_of_apart`).  In lists of directories there may be, and it can be told from the
places.  In every circle of three there is a directory and a place in it, and the third lies at or
in a neighbour of the directory (`isCircle_iff`): the place comes before the neighbour as it does by
the names of directories, and the neighbour comes before the directory because one of the two is the
last name of its path and counts as a file.
-/

namespace SourceBundle.Path

/-! ## Every two paths are compared -/

theorem compareComponents_swap (a b : List Text) :
    compareComponents a b = (compareComponents b a).swap := by
  induction a generalizing b with
  | nil => cases b <;> rfl
  | cons x as ih =>
    cases b with
    | nil => rfl
    | cons y bs =>
      by_cases hxy : x = y
      · subst hxy
        rw [compareComponents_cons_self, compareComponents_cons_self, ih]
      · rw [compareComponents_cons_of_ne hxy, compareComponents_cons_of_ne (Ne.symm hxy)]
        exact Std.OrientedCmp.eq_swap

theorem eq_of_compareComponents {a b : List Text} (h : compareComponents a b = .eq) : a = b := by
  induction a generalizing b with
  | nil =>
    cases b with
    | nil => rfl
    | cons y bs => cases h
  | cons x as ih =>
    cases b with
    | nil => cases h
    | cons y bs =>
      by_cases hxy : x = y
      · subst hxy
        rw [compareComponents_cons_self] at h
        rw [ih h]
      · rw [compareComponents_cons_of_ne hxy] at h
        exact absurd (congrArg Prod.snd (Std.LawfulEqCmp.eq_of_compare h)) hxy

instance : Std.OrientedCmp compareComponents := ⟨compareComponents_swap _ _⟩

instance : Std.OrientedCmp compare := ⟨compareComponents_swap _ _⟩

instance : Std.LawfulEqCmp compare where
  compare_self := Std.ReflCmp.compare_self
  eq_of_compare h := components_injective (eq_of_compareComponents h)

/-! ## Lists on which the order is total -/

/-- On the paths of the list the order is transitive. -/
def IsTransitiveOn (paths : List Text) : Prop :=
  ∀ p ∈ paths, ∀ q ∈ paths, ∀ r ∈ paths,
    (compare p q).isLE → (compare q r).isLE → (compare p r).isLE

instance (paths : List Text) : Decidable (IsTransitiveOn paths) :=
  inferInstanceAs (Decidable (∀ p ∈ paths, ∀ q ∈ paths, ∀ r ∈ paths,
    (compare p q).isLE → (compare q r).isLE → (compare p r).isLE))

theorem IsTransitiveOn.subset {paths others : List Text} (h : IsTransitiveOn paths)
    (hsub : others ⊆ paths) : IsTransitiveOn others :=
  fun p hp q hq r hr => h p (hsub hp) q (hsub hq) r (hsub hr)

/-- Where the order is transitive, taking the paths one after the other puts them in order. -/
theorem IsTransitiveOn.pairwise_sortBy {paths : List Text} (h : IsTransitiveOn paths) :
    (sortBy (fun p q => compare p q == .lt) paths).Pairwise fun p q => (compare p q).isLE := by
  have ordered : (sortBy (fun p q => compare p q == .lt) paths).Pairwise
      fun p q => (compare q p == .lt) = false := by
    apply pairwise_sortBy_of_mem
    · intro p _ q _ hpq
      rw [beq_iff_eq] at hpq
      rw [beq_eq_false_iff_ne]
      exact Std.OrientedCmp.not_lt_of_lt hpq
    · intro p hp q hq r hr hpq hqr
      rw [beq_eq_false_iff_ne, Ne, ← Ordering.isGE_iff_ne_lt, Std.OrientedCmp.isGE_iff_isLE] at *
      exact h r hr q hq p hp hqr hpq
  refine ordered.imp fun {p q} hqp => ?_
  rw [beq_eq_false_iff_ne, Ne, ← Ordering.isGE_iff_ne_lt] at hqp
  exact Std.OrientedCmp.isGE_iff_isLE.1 hqp

/-- Once its repeats are dropped, a list in order ascends strictly. -/
theorem pairwise_lt_dropRepeats {paths : List Text}
    (h : paths.Pairwise fun p q => (compare p q).isLE) :
    (dropRepeats paths).Pairwise fun p q => compare p q = .lt := by
  have antisymm : ∀ p q : Text, (compare p q).isLE → (compare q p).isLE → p = q :=
    fun p q hpq hqp => Std.LawfulEqCmp.eq_of_compare (Std.OrientedCmp.isLE_antisymm hpq hqp)
  exact (pairwise_dropRepeats antisymm h).imp fun hpq => lt_of_isLE_of_ne hpq.1 hpq.2

/-- Where the order is transitive, sorting puts the paths in strictly ascending order. -/
theorem IsTransitiveOn.pairwise_sort {paths : List Text} (h : IsTransitiveOn paths) :
    (sort paths).Pairwise fun p q => compare p q = .lt :=
  pairwise_lt_dropRepeats h.pairwise_sortBy

/-- Where the order is transitive, sorting depends on which paths there are and on nothing else. -/
theorem IsTransitiveOn.sort_eq {paths others : List Text} (h : IsTransitiveOn paths)
    (same : ∀ p, p ∈ others ↔ p ∈ paths) : sort others = sort paths := by
  have hothers : IsTransitiveOn others := h.subset fun p hp => (same p).1 hp
  refine eq_of_pairwise_lt hothers.pairwise_sort h.pairwise_sort fun p => ?_
  rw [mem_sort, mem_sort, same]

theorem Apart.isTransitiveOn {paths : List Text} (h : Apart paths) : IsTransitiveOn paths := by
  intro p hp q hq r hr hpq hqr
  rw [compare_eq_compareAsFiles h hp hq] at hpq
  rw [compare_eq_compareAsFiles h hq hr] at hqr
  rw [compare_eq_compareAsFiles h hp hr]
  exact Std.TransCmp.isLE_trans hpq hqr

/-- On paths of which none continues another, the order is total and sorting gives the one strictly
ascending list of them. -/
theorem sort_canonical_of_apart {paths : List Text} (h : Apart paths) :
    (∀ p q, compare q p = (compare p q).swap ∧ (compare p q = .eq ↔ p = q)) ∧
      (∀ p ∈ paths, ∀ q ∈ paths, ∀ r ∈ paths,
        (compare p q).isLE → (compare q r).isLE → (compare p r).isLE) ∧
      (sort paths).Nodup ∧ (∀ p, p ∈ sort paths ↔ p ∈ paths) ∧
      (sort paths).Pairwise (fun p q => compare p q = .lt) ∧
      ∀ others : List Text, (∀ p, p ∈ others ↔ p ∈ paths) → sort others = sort paths := by
  refine ⟨fun p q => ⟨Std.OrientedCmp.eq_swap, Std.LawfulEqCmp.compare_eq_iff_eq⟩,
    h.isTransitiveOn, nodup_sort h, fun p => mem_sort, h.isTransitiveOn.pairwise_sort, ?_⟩
  exact fun others same => h.isTransitiveOn.sort_eq same

/-- Paths of files with names that differ in their case only, with a directory and a file of one
such name. -/
def casePaths : List Text :=
  [['b'], ['A'], ['s', '/', 'x'], ['a'], ['S'], ['B'], ['s', '/', 'X', '/', 'y']]

theorem sort_canonical_of_casePaths :
    Apart casePaths ∧
      sort casePaths =
        [['s', '/', 'X', '/', 'y'], ['s', '/', 'x'], ['A'], ['a'], ['B'], ['b'], ['S']] ∧
      sort (casePaths.reverse ++ casePaths) = sort casePaths ∧
      compare ['A'] ['a'] = .lt ∧ compare ['a'] ['B'] = .lt ∧ (compare ['A'] ['B']).isLE := by
  have hapart : Apart casePaths := by
    unfold Apart
    decide
  obtain ⟨-, htrans, -, -, -, hsame⟩ := sort_canonical_of_apart hapart
  refine ⟨hapart, by decide, hsame _ (by simp), rfl, rfl, ?_⟩
  exact htrans ['A'] (by decide) ['a'] (by decide) ['B'] (by decide) rfl rfl

/-! ## Circles -/

/-- Each place comes before the next one, and the last before the first. -/
def IsCircle (a b c : List Text) : Prop :=
  compareComponents a b = .lt ∧ compareComponents b c = .lt ∧ compareComponents c a = .lt

/-- The directory at `dir` comes before the place `below` in it, which comes before `other`, which
comes before the directory: `other` lies in or at a neighbour `y` of the directory. -/
def Straddles (dir below other : List Text) : Prop :=
  ∃ (above : List Text) (x y : Text) (under rest : List Text),
    dir = above ++ [x] ∧ below = above ++ x :: under ∧ under ≠ [] ∧ other = above ++ y :: rest ∧
      if rest = [] then compareNames y x = .lt else compareNames x y = .lt

theorem IsCircle.rotate {a b c : List Text} (h : IsCircle a b c) : IsCircle b c a :=
  ⟨h.2.1, h.2.2, h.1⟩

theorem compareComponents_append (above a b : List Text) :
    compareComponents (above ++ a) (above ++ b) = compareComponents a b := by
  induction above with
  | nil => rfl
  | cons x above ih => rw [List.cons_append, List.cons_append, compareComponents_cons_self, ih]

/-- Two steps apart in kind are in order by kind. -/
theorem compareSteps_folder_file (x y : Text) : compareSteps (false, x) (true, y) = .lt := rfl

theorem compareSteps_same (kind : Bool) (x y : Text) :
    compareSteps (kind, x) (kind, y) = compareNames x y := by
  simp [compareSteps, compareLex, compareOn, compareStepNames]

theorem between_iff {x y : Text} {rest : List Text} :
    (compareSteps (false, x) (rest.isEmpty, y) = .lt ∧
        compareSteps (rest.isEmpty, y) (true, x) = .lt) ↔
      if rest = [] then compareNames y x = .lt else compareNames x y = .lt := by
  cases rest with
  | nil => simp [compareSteps_folder_file, compareSteps_same]
  | cons z rest => simp [compareSteps_folder_file, compareSteps_same]

theorem Straddles.isCircle {dir below other : List Text} (h : Straddles dir below other) :
    IsCircle dir below other := by
  obtain ⟨above, x, y, under, rest, rfl, rfl, hunder, rfl, hbetween⟩ := h
  have hxy : x ≠ y := by
    rintro rfl
    have hself : compareNames x x = .eq := Std.ReflCmp.compare_self
    simp [hself] at hbetween
  obtain ⟨hlow, hhigh⟩ := between_iff.2 hbetween
  have hkind : under.isEmpty = false := List.isEmpty_eq_false_iff.2 hunder
  refine ⟨?_, ?_, ?_⟩
  · rw [compareComponents_append, compareComponents_cons_self]
    cases under with
    | nil => exact absurd rfl hunder
    | cons z under => rfl
  · rw [compareComponents_append, compareComponents_cons_of_ne hxy, hkind, hlow]
  · rw [compareComponents_append, compareComponents_cons_of_ne hxy.symm]
    exact hhigh

theorem Straddles.cons {dir below other : List Text} (h : Straddles dir below other) (x : Text) :
    Straddles (x :: dir) (x :: below) (x :: other) := by
  obtain ⟨above, y, z, under, rest, rfl, rfl, hunder, rfl, hbetween⟩ := h
  exact ⟨x :: above, y, z, under, rest, rfl, rfl, hunder, rfl, hbetween⟩

/-- Where a circle parts at its third place, the first place is a directory and the second one lies
in it. -/
theorem straddles_of_isCircle {x z : Text} (hxz : x ≠ z) {as bs cs : List Text}
    (h : IsCircle (x :: as) (x :: bs) (z :: cs)) : Straddles (x :: as) (x :: bs) (z :: cs) := by
  obtain ⟨-, hbc, hca⟩ := h
  rw [compareComponents_cons_of_ne hxz] at hbc
  rw [compareComponents_cons_of_ne hxz.symm] at hca
  have hsteps : compareSteps (bs.isEmpty, x) (as.isEmpty, x) = .lt := Std.TransCmp.lt_trans hbc hca
  cases as with
  | nil =>
    cases bs with
    | nil =>
      have hself : compareSteps (true, x) (true, x) = .eq := Std.ReflCmp.compare_self
      cases hself.symm.trans hsteps
    | cons b bs =>
      exact ⟨[], x, z, b :: bs, cs, rfl, rfl, List.cons_ne_nil b bs, rfl, between_iff.1 ⟨hbc, hca⟩⟩
  | cons a as =>
    cases bs with
    | nil => cases hsteps
    | cons b bs =>
      have hself : compareSteps (false, x) (false, x) = .eq := Std.ReflCmp.compare_self
      cases hself.symm.trans hsteps

/-- In every circle there is a directory, with a place in it next and one beside it behind. -/
theorem isCircle_iff {a b c : List Text} :
    IsCircle a b c ↔ Straddles a b c ∨ Straddles b c a ∨ Straddles c a b := by
  constructor
  · intro h
    induction a generalizing b c with
    | nil =>
      cases c with
      | nil => cases h.2.2
      | cons z cs => cases h.2.2
    | cons x as ih =>
      cases b with
      | nil => cases h.1
      | cons y bs =>
        cases c with
        | nil => cases h.2.1
        | cons z cs =>
          by_cases hxy : x = y
          · subst hxy
            by_cases hxz : x = z
            · subst hxz
              simp only [IsCircle, compareComponents_cons_self] at h
              rcases ih h with h | h | h
              · exact .inl (h.cons x)
              · exact .inr (.inl (h.cons x))
              · exact .inr (.inr (h.cons x))
            · exact .inl (straddles_of_isCircle hxz h)
          · by_cases hyz : y = z
            · subst hyz
              exact .inr (.inl (straddles_of_isCircle (Ne.symm hxy) h.rotate))
            · by_cases hzx : z = x
              · subst hzx
                exact .inr (.inr (straddles_of_isCircle hxy h.rotate.rotate))
              · -- Three different names are in order by their steps, which make no circle.
                obtain ⟨hab, hbc, hca⟩ := h
                rw [compareComponents_cons_of_ne hxy] at hab
                rw [compareComponents_cons_of_ne hyz] at hbc
                rw [compareComponents_cons_of_ne hzx] at hca
                exact absurd (Std.TransCmp.lt_trans hab hbc) (Std.OrientedCmp.not_lt_of_lt hca)
  · rintro (h | h | h)
    · exact h.isCircle
    · exact h.isCircle.rotate.rotate
    · exact h.isCircle.rotate

/-- Some path of the list stands between a directory of the list and a path in that directory. -/
def IsTangled (paths : List Text) : Prop :=
  ∃ dir ∈ paths, ∃ below ∈ paths, ∃ other ∈ paths,
    Straddles (components dir) (components below) (components other)

/-- The order is transitive on the paths exactly when they are not tangled. -/
theorem isTransitiveOn_iff {paths : List Text} : IsTransitiveOn paths ↔ ¬ IsTangled paths := by
  constructor
  · rintro h ⟨dir, hdir, below, hbelow, other, hother, hstraddles⟩
    obtain ⟨hdb, hbo, hod⟩ := hstraddles.isCircle
    have hdo : (compare dir other).isLE :=
      h dir hdir below hbelow other hother (Ordering.isLE_of_eq_lt hdb) (Ordering.isLE_of_eq_lt hbo)
    exact Std.OrientedCmp.not_isLE_of_lt hod hdo
  · intro h p hp q hq r hr hpq hqr
    by_contra hpr
    have hrp : compare r p = .lt := Std.OrientedCmp.lt_of_not_isLE hpr
    have hpq' : compare p q = .lt := by
      refine lt_of_isLE_of_ne hpq ?_
      rintro rfl
      exact hpr hqr
    have hqr' : compare q r = .lt := by
      refine lt_of_isLE_of_ne hqr ?_
      rintro rfl
      exact hpr hpq
    rcases isCircle_iff.1 ⟨hpq', hqr', hrp⟩ with hc | hc | hc
    · exact h ⟨p, hp, q, hq, r, hr, hc⟩
    · exact h ⟨q, hq, r, hr, p, hp, hc⟩
    · exact h ⟨r, hr, p, hp, q, hq, hc⟩

/-- If sorting gives one result for all orders in which different paths come, then each circle is in
it from whichever of its paths on. -/
theorem sublist_sort_of_isCircle {paths : List Text} (hnodup : paths.Nodup)
    (hsame : ∀ others : List Text, others.Perm paths → sort others = sort paths) {p q r : Text}
    (hp : p ∈ paths) (hq : q ∈ paths) (hr : r ∈ paths)
    (h : IsCircle (components p) (components q) (components r)) :
    [p, q, r].Sublist (sort paths) := by
  obtain ⟨hpq, hqr, hrp⟩ : compare p q = .lt ∧ compare q r = .lt ∧ compare r p = .lt := h
  have hne : ∀ {a b : Text}, compare a b = .lt → a ≠ b := by
    rintro a b hab rfl
    exact Std.OrientedCmp.not_lt_of_lt hab hab
  have hthree : [p, q, r].Nodup := by simp [hne hpq, hne hqr, (hne hrp).symm]
  have hperm : ([p, q, r] ++ paths.diff [p, q, r]).Perm paths := by
    apply List.subperm_append_diff_self_of_count_le
    exact fun a _ => (hthree.subperm (by simp [hp, hq, hr])).count_le a
  have hchain : sortBy (fun a b => compare a b == .lt) [p, q, r] = [p, q, r] := by
    apply sortBy_of_isChain
    simp [Std.OrientedCmp.gt_of_lt hpq, Std.OrientedCmp.gt_of_lt hqr]
  have hsort : sort ([p, q, r] ++ paths.diff [p, q, r]) =
      sortBy (fun a b => compare a b == .lt) ([p, q, r] ++ paths.diff [p, q, r]) :=
    dropRepeats_of_nodup (((sortBy_perm _ _).trans hperm).nodup_iff.mpr hnodup)
  have hfirst := sortBy_sublist_append (fun a b => compare a b == .lt) [p, q, r]
    (paths.diff [p, q, r])
  rwa [hchain, ← hsort, hsame _ hperm] at hfirst

/-- Sorting different paths gives one result for all orders in which they come exactly when they are
not tangled. -/
theorem sort_perm_iff {paths : List Text} (hnodup : paths.Nodup) :
    (∀ others : List Text, others.Perm paths → sort others = sort paths) ↔ ¬ IsTangled paths := by
  constructor
  · rintro hsame ⟨dir, hdir, below, hbelow, other, hother, hstraddles⟩
    have hcircle := hstraddles.isCircle
    have hforth : [dir, other].Sublist (sort paths) :=
      List.Sublist.trans (by simp)
        (sublist_sort_of_isCircle hnodup hsame hdir hbelow hother hcircle)
    have hback : [other, dir].Sublist (sort paths) :=
      List.Sublist.trans (by simp)
        (sublist_sort_of_isCircle hnodup hsame hbelow hother hdir hcircle.rotate)
    exact not_sublist_swap (nodup_sort_of_nodup hnodup) hforth hback
  · intro h others hperm
    exact (isTransitiveOn_iff.2 h).sort_eq fun p => hperm.mem_iff

end SourceBundle.Path
