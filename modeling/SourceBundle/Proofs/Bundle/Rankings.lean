import SourceBundle.Proofs.Bundle.Metrics

/-!
# Rankings of files

A ranking goes by numbers downwards and, among equal numbers, by paths upwards.  That is a total
order (`rankOrder`), so entries of different paths stand in a ranking in exactly one order, and a
listed entry outranks every entry that is left out.

These properties leave no choice: there is one list of the first `n` entries (`IsTop.unique`), and it
is what is shown as the top files.  The tables of metrics have every path once, so they hold for
whatever is measured (`nodup_paths_measure`).
-/

namespace SourceBundle

namespace Counts

variable {table : Counts} {n : Nat} {listed : List (Text × Nat)} {a b : Text × Nat}

/-! ## The order of a ranking -/

/-- The entry `a` has a greater number than `b`, or the same number and the smaller path. -/
def Outranks (a b : Text × Nat) : Prop := b.2 < a.2 ∨ a.2 = b.2 ∧ compare a.1 b.1 = .lt

/-- The order of entries in a ranking. -/
def rankOrder : Text × Nat → Text × Nat → Ordering :=
  compareLex (fun a b => compare b.2 a.2) (fun a b => compare a.1 b.1)

instance : Std.TransCmp rankOrder :=
  have : Std.TransCmp fun a b : Text × Nat => compare b.2 a.2 :=
    transCmp_on (fun m n : Nat => compare n m) Prod.snd
  have : Std.TransCmp fun a b : Text × Nat => compare a.1 b.1 := transCmp_on compare Prod.fst
  inferInstanceAs (Std.TransCmp (compareLex _ _))

theorem rankOrder_eq_lt_iff : rankOrder a b = .lt ↔ Outranks a b := by
  rw [rankOrder, compareLex, Ordering.then_eq_lt, Nat.compare_eq_lt, Nat.compare_eq_eq, Outranks,
    eq_comm]

instance : Std.LawfulEqCmp rankOrder where
  compare_self := Std.ReflCmp.compare_self
  eq_of_compare h := by
    rw [rankOrder, compareLex, Ordering.then_eq_eq, Nat.compare_eq_eq] at h
    exact Prod.ext (Std.LawfulEqCmp.eq_of_compare h.2) h.1.symm

theorem Outranks.not_outranks (h : Outranks a b) : ¬ Outranks b a := by
  rw [← rankOrder_eq_lt_iff] at h ⊢
  exact Std.OrientedCmp.not_lt_of_lt h

theorem ranksBefore_eq_true_iff : ranksBefore a b = true ↔ Outranks a b := by
  simp [ranksBefore, Outranks]

/-- The entries of a table are ranked without ties. -/
theorem pairwise_outranks (h : table.Nodup) : (sortBy ranksBefore table).Pairwise Outranks := by
  have hsame : ranksBefore = fun a b => rankOrder a b == .lt := by
    funext a b
    rw [Bool.eq_iff_iff, ranksBefore_eq_true_iff, beq_iff_eq, rankOrder_eq_lt_iff]
  have hnodup : (sortBy ranksBefore table).Nodup := (sortBy_perm _ table).nodup_iff.mpr h
  have hsorted := pairwise_sortBy_isLE rankOrder table
  rw [← hsame] at hsorted
  refine (hsorted.and hnodup).imp fun {a b} hab => ?_
  exact rankOrder_eq_lt_iff.mp (lt_of_isLE_of_ne hab.1 hab.2)

/-! ## The first entries -/

/-- `listed` are the first `n` entries of the ranking of a table. -/
structure IsTop (table : Counts) (n : Nat) (listed : List (Text × Nat)) : Prop where
  length_eq : listed.length = min n table.length
  nodup_paths : (listed.map Prod.fst).Nodup
  /-- Each path is listed with its own number. -/
  subset : listed ⊆ table
  ordered : listed.Pairwise Outranks
  /-- No entry that is left out would come before one that is listed. -/
  outranks : ∀ a ∈ listed, ∀ b ∈ table, b ∉ listed → Outranks a b

theorem isTop_top (h : (table.map Prod.fst).Nodup) (n : Nat) : table.IsTop n (table.top n) := by
  have hperm := sortBy_perm ranksBefore table
  have hpaths : ((sortBy ranksBefore table).map Prod.fst).Nodup :=
    (hperm.map Prod.fst).nodup_iff.mpr h
  have hranked := pairwise_outranks h.of_map
  have htake : (table.top n).Sublist (sortBy ranksBefore table) := List.take_sublist n _
  refine
    { length_eq := by rw [top, List.length_take, hperm.length_eq]
      nodup_paths := (htake.map Prod.fst).nodup hpaths
      subset := fun a ha => hperm.mem_iff.mp (htake.subset ha)
      ordered := hranked.sublist htake
      outranks := ?_ }
  intro a ha b hb hout
  rw [← List.take_append_drop n (sortBy ranksBefore table)] at hranked hperm
  have hleft : b ∈ (sortBy ranksBefore table).drop n :=
    (List.mem_append.mp (hperm.mem_iff.mpr hb)).resolve_left hout
  exact (List.pairwise_append.mp hranked).2.2 a ha b hleft

theorem IsTop.nodup (h : table.IsTop n listed) : listed.Nodup := h.nodup_paths.of_map

/-- Of two lists of first entries, each has the entries of the other. -/
theorem IsTop.subset_of {listed' : List (Text × Nat)} (h : table.IsTop n listed)
    (h' : table.IsTop n listed') : listed ⊆ listed' := by
  intro a ha
  by_contra hout
  -- An entry of the second list that is not in the first would be outranked by `a` and outrank it.
  have hsub : listed' ⊆ listed := by
    intro b hb
    by_contra hout'
    have hab := h.outranks a ha b (h'.subset hb) hout'
    exact hab.not_outranks (h'.outranks b hb a (h.subset ha) hout)
  have hlength : listed.length ≤ listed'.length := by rw [h.length_eq, h'.length_eq]
  have hperm := (h'.nodup.subperm hsub).perm_of_length_le hlength
  exact hout (hperm.mem_iff.mpr ha)

/-- There is one list of first entries. -/
theorem IsTop.unique {listed' : List (Text × Nat)} (h : table.IsTop n listed)
    (h' : table.IsTop n listed') : listed = listed' := by
  have hordered : ∀ {l}, table.IsTop n l → l.Pairwise fun a b => rankOrder a b = .lt :=
    fun hl => hl.ordered.imp rankOrder_eq_lt_iff.mpr
  refine eq_of_pairwise_lt (hordered h) (hordered h') fun a => ?_
  exact ⟨fun ha => h.subset_of h' ha, fun ha => h'.subset_of h ha⟩

end Counts

/-! ## The top files -/

namespace Metrics

/-- Whatever is measured has a number for each path. -/
theorem nodup_paths_measure (counter : TokenCounter) (files : List TextFile) (document : Text) :
    ((measure counter files document).tokensByPath.map Prod.fst).Nodup :=
  Counts.nodup_paths_ofList _

/-- **The top files are the first entries of the ranking by tokens.**  No other list is, and a longer
list of top files goes on where a shorter one ends. -/
theorem isTop_topFiles {m : Metrics} (h : (m.tokensByPath.map Prod.fst).Nodup) (n : Nat) :
    m.tokensByPath.IsTop n (m.topFiles n) ∧
      (∀ listed, m.tokensByPath.IsTop n listed → listed = m.topFiles n) ∧
      ∀ k, n ≤ k → m.topFiles n <+: m.topFiles k := by
  have htop : m.tokensByPath.IsTop n (m.topFiles n) := Counts.isTop_top h n
  refine ⟨htop, fun listed hlisted => hlisted.unique htop, fun k hk => ?_⟩
  exact List.take_prefix_take_left hk

/-- Three files, two of them with as many tokens. -/
def threeSizes : Metrics :=
  measure ⟨fun _ content => content.length, List.length⟩
    [⟨['c'], ['x']⟩, ⟨['b'], ['x', 'y']⟩, ⟨['a'], ['z']⟩] []

/-- The cut goes between the files with as many tokens. -/
theorem isTop_topFiles_threeSizes :
    threeSizes.topFiles 2 = [(['b'], 2), (['a'], 1)] ∧
      threeSizes.tokensByPath.IsTop 2 [(['b'], 2), (['a'], 1)] ∧
      [(['b'], 2), (['a'], 1)] <+: threeSizes.topFiles 3 := by
  have hpaths : (threeSizes.tokensByPath.map Prod.fst).Nodup := nodup_paths_measure _ _ _
  have hshown : threeSizes.topFiles 2 = [(['b'], 2), (['a'], 1)] := by decide
  obtain ⟨htop, -, hlonger⟩ := isTop_topFiles hpaths 2
  rw [hshown] at htop hlonger
  exact ⟨hshown, htop, hlonger 3 (by decide)⟩

end Metrics

end SourceBundle
