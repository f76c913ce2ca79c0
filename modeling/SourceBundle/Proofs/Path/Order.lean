import Mathlib.Data.List.Infix
import SourceBundle.Path.Order
import SourceBundle.Proofs.Sorting
import SourceBundle.Proofs.Text.Pieces

/-!
# The order of files

`Path.compare` decides by position whether a name is that of a directory: a path that goes on behind
the name makes it one.  Written down with the names, that is a step for every name (`steps`), and
paths compared step by step, directories first, are in a total order on all paths
(`compareAsFiles`).

`Path.compare` is this order wherever neither path continues the other (`compare_eq_compareAsFiles`).
So on the paths of files, no one of which continues another (`Apart`), it is total as well, and
sorting gives the one strictly ascending list of the paths (`eq_sort_of_pairwise`).
-/

namespace SourceBundle.Path

/-! ## Steps -/

/-- One name of a path, and whether the path ends there, at a file. -/
abbrev Step := Bool × Text

/-- By name alone. -/
def compareStepNames (a b : Step) : Ordering := compareNames a.2 b.2

/-- Directories before files, then by name. -/
def compareSteps (a b : Step) : Ordering :=
  compareLex (compareOn Prod.fst) compareStepNames a b

/-- The steps of the path with the given names. -/
def steps : List Text → List Step
  | [] => []
  | name :: rest => (rest.isEmpty, name) :: steps rest

/-- The order of the places of files: name by name, and at each name directories first. -/
def comparePlaces (a b : List Text) : Ordering :=
  List.compareLex compareSteps (steps a) (steps b)

/-- The order of the paths of files. -/
def compareAsFiles (p q : Text) : Ordering := comparePlaces (components p) (components q)

/-- The steps tell the names. -/
theorem map_snd_steps (names : List Text) : (steps names).map Prod.snd = names := by
  induction names with
  | nil => rfl
  | cons name rest ih => rw [steps, List.map_cons, ih]

theorem steps_injective : Function.Injective steps :=
  Function.LeftInverse.injective map_snd_steps

theorem components_injective : Function.Injective components := Text.pieces_injective '/'

/-! ## A total order -/

instance : Std.TransCmp compareNames :=
  inferInstanceAs (Std.TransCmp (compareLex (compareOn Text.lower)
    (Ord.compare : Text → Text → Ordering)))

instance : Std.LawfulEqCmp compareNames where
  compare_self {a} := by simp [compareNames]
  eq_of_compare {a b} h := by
    rw [compareNames, Ordering.then_eq_eq] at h
    exact Std.LawfulEqCmp.eq_of_compare h.2

instance : Std.TransCmp compareStepNames := transCmp_on compareNames Prod.snd

instance : Std.TransCmp compareSteps :=
  inferInstanceAs (Std.TransCmp (compareLex (compareOn Prod.fst) compareStepNames))

instance : Std.LawfulEqCmp compareSteps where
  compare_self {a} := by
    rw [compareSteps, compareLex_eq_eq]
    exact ⟨Std.ReflCmp.compare_self, Std.ReflCmp.compare_self⟩
  eq_of_compare {a b} h := by
    rw [compareSteps, compareLex_eq_eq] at h
    have hkind : Ord.compare a.1 b.1 = .eq := h.1
    have hname : compareNames a.2 b.2 = .eq := h.2
    exact Prod.ext (Std.LawfulEqCmp.eq_of_compare hkind) (Std.LawfulEqCmp.eq_of_compare hname)

instance : Std.TransCmp comparePlaces := transCmp_on (List.compareLex compareSteps) steps

instance : Std.LawfulEqCmp comparePlaces :=
  lawfulEqCmp_on (List.compareLex compareSteps) steps_injective

instance : Std.TransCmp compareAsFiles := transCmp_on comparePlaces components

instance : Std.LawfulEqCmp compareAsFiles := lawfulEqCmp_on comparePlaces components_injective

theorem comparePlaces_cons (x y : Text) (as bs : List Text) :
    comparePlaces (x :: as) (y :: bs) =
      (compareSteps (as.isEmpty, x) (bs.isEmpty, y)).then (comparePlaces as bs) := by
  rw [comparePlaces, steps, steps, List.compareLex_cons_cons]
  rfl

/-! ## Paths that do not continue each other -/

/-- Neither list of names continues the other. -/
def Diverge (a b : List Text) : Prop := (a <+: b → a = b) ∧ (b <+: a → b = a)

theorem Diverge.tail {x : Text} {as bs : List Text} (h : Diverge (x :: as) (x :: bs)) :
    Diverge as bs where
  left hpre := (List.cons.inj (h.1 ((List.prefix_cons_inj x).2 hpre))).2
  right hpre := (List.cons.inj (h.2 ((List.prefix_cons_inj x).2 hpre))).2

theorem Diverge.isEmpty_eq {as bs : List Text} (h : Diverge as bs) : as.isEmpty = bs.isEmpty := by
  cases as with
  | nil =>
    obtain rfl : [] = bs := h.1 List.nil_prefix
    rfl
  | cons x as =>
    cases bs with
    | nil => exact absurd (h.2 List.nil_prefix) (List.cons_ne_nil x as).symm
    | cons y bs => rfl

theorem compareComponents_cons_self (x : Text) (as bs : List Text) :
    compareComponents (x :: as) (x :: bs) = compareComponents as bs := by
  cases as <;> cases bs <;> simp [compareComponents]

/-- At the first difference the steps decide. -/
theorem compareComponents_cons_of_ne {x y : Text} (h : x ≠ y) (as bs : List Text) :
    compareComponents (x :: as) (y :: bs) = compareSteps (as.isEmpty, x) (bs.isEmpty, y) := by
  cases as <;> cases bs <;> simp [compareComponents, h] <;> rfl

/-- Where neither list of names continues the other, the steps tell the order. -/
theorem compareComponents_eq_comparePlaces {a b : List Text} (h : Diverge a b) :
    compareComponents a b = comparePlaces a b := by
  induction a generalizing b with
  | nil =>
    obtain rfl : [] = b := h.1 List.nil_prefix
    rfl
  | cons x as ih =>
    cases b with
    | nil => exact absurd (h.2 List.nil_prefix) (List.cons_ne_nil x as).symm
    | cons y bs =>
      rw [comparePlaces_cons]
      by_cases hxy : x = y
      · subst hxy
        have hself : compareSteps (bs.isEmpty, x) (bs.isEmpty, x) = .eq := Std.ReflCmp.compare_self
        rw [compareComponents_cons_self, ih h.tail, h.tail.isEmpty_eq, hself]
        rfl
      · have hne : compareSteps (as.isEmpty, x) (bs.isEmpty, y) ≠ .eq := by
          intro heq
          exact hxy (congrArg Prod.snd (Std.LawfulEqCmp.eq_of_compare heq))
        rw [compareComponents_cons_of_ne hxy]
        cases hsteps : compareSteps (as.isEmpty, x) (bs.isEmpty, y) with
        | eq => exact absurd hsteps hne
        | lt => rfl
        | gt => rfl

/-- No path continues another one name by name, as it is with the paths of files in a directory. -/
def Apart (paths : List Text) : Prop :=
  ∀ p ∈ paths, ∀ q ∈ paths, components p <+: components q → p = q

theorem Apart.diverge {paths : List Text} (h : Apart paths) {p q : Text} (hp : p ∈ paths)
    (hq : q ∈ paths) : Diverge (components p) (components q) where
  left hpre := congrArg components (h p hp q hq hpre)
  right hpre := congrArg components (h q hq p hp hpre)

theorem Apart.subset {paths others : List Text} (h : Apart paths) (hsub : others ⊆ paths) :
    Apart others :=
  fun p hp q hq => h p (hsub hp) q (hsub hq)

theorem compare_eq_compareAsFiles {paths : List Text} (h : Apart paths) {p q : Text}
    (hp : p ∈ paths) (hq : q ∈ paths) : compare p q = compareAsFiles p q :=
  compareComponents_eq_comparePlaces (h.diverge hp hq)

/-! ## Sorting -/

@[simp] theorem mem_sort {paths : List Text} {p : Text} : p ∈ sort paths ↔ p ∈ paths := by
  rw [sort, mem_dropRepeats, (sortBy_perm _ paths).mem_iff]

/-- Paths of files are sorted in strictly ascending order. -/
theorem pairwise_sort {paths : List Text} (h : Apart paths) :
    (sort paths).Pairwise fun p q => compareAsFiles p q = .lt := by
  have hsort : sortBy (fun p q => compare p q == .lt) paths =
      sortBy (fun p q => compareAsFiles p q == .lt) paths :=
    sortBy_congr fun p hp q hq => by rw [compare_eq_compareAsFiles h hp hq]
  have antisymm : ∀ p q : Text, (compareAsFiles p q).isLE → (compareAsFiles q p).isLE → p = q :=
    fun p q hpq hqp => Std.LawfulEqCmp.eq_of_compare (Std.OrientedCmp.isLE_antisymm hpq hqp)
  rw [sort, hsort]
  refine (pairwise_dropRepeats antisymm (pairwise_sortBy_isLE compareAsFiles paths)).imp ?_
  exact fun h => lt_of_isLE_of_ne h.1 h.2

theorem nodup_sort {paths : List Text} (h : Apart paths) : (sort paths).Nodup :=
  nodup_of_pairwise_lt (pairwise_sort h)

/-- Sorting repeats no path that was there once, in whatever order it finds the paths. -/
theorem nodup_sort_of_nodup {paths : List Text} (h : paths.Nodup) : (sort paths).Nodup :=
  (dropRepeats_sublist _).nodup ((sortBy_perm _ paths).nodup_iff.mpr h)

/-- There is one strictly ascending list of given files, and sorting finds it. -/
theorem eq_sort_of_pairwise {paths ps : List Text} (h : Apart paths)
    (hps : ps.Pairwise fun p q => compareAsFiles p q = .lt) (same : ∀ p, p ∈ ps ↔ p ∈ paths) :
    ps = sort paths :=
  eq_of_pairwise_lt hps (pairwise_sort h) fun p => by rw [same, mem_sort]

end SourceBundle.Path
