import Mathlib.Data.List.Induction
import SourceBundle.Proofs.Text.Pieces
import SourceBundle.Text.Grouped

/-!
# Grouped numerals

Places are counted from the lowest digit up, but a numeral is read from the highest one down.  Above
the lowest digit a comma depends on the place modulo three only (`atPlace_add_three`), so three more
digits at the low end add a comma and these digits and change nothing in front of them
(`groupLowFirst_append`).  Digits that come as one to three first and as three in every other group are
therefore put into just these groups (`groupLowFirst_reverse_flatten`), and all digits come so in some
way (`exists_areGroups`), also where three divides their number: then the first group is full and has
no comma before it.

The groups and the digits leave no choice: the grouped numeral of a number is the only text that has
them (`IsGroupedNumeral.eq_grouped`).
-/

namespace SourceBundle.Text

variable {n i : Nat} {first group digits t : Text} {rest : List Text}

/-! ## Commas from the lowest digit up -/

/-- Above the lowest digit, whether there is a comma at a place depends on the place modulo three. -/
theorem atPlace_add_three (c : Char) (hi : 0 < i) : atPlace c (i + 3) = atPlace c i := by
  simp only [atPlace, Nat.add_mod_right, hi, Nat.add_pos_left hi]

theorem flatMap_zipIdx_add_three (digits : Text) (hi : 0 < i) :
    ((digits.zipIdx (i + 3)).flatMap fun digit => atPlace digit.1 digit.2) =
      (digits.zipIdx i).flatMap fun digit => atPlace digit.1 digit.2 := by
  induction digits generalizing i with
  | nil => rfl
  | cons c digits ih =>
    have hnext : i + 3 + 1 = i + 1 + 3 := Nat.add_right_comm i 3 1
    rw [List.zipIdx_cons, List.zipIdx_cons, List.flatMap_cons, List.flatMap_cons, hnext,
      ih (Nat.succ_pos i), atPlace_add_three c hi]

/-- Up to three digits stay together. -/
theorem groupLowFirst_of_length_le (h : digits.length ≤ 3) : groupLowFirst digits = digits := by
  match digits, h with
  | [], _ => rfl
  | [_], _ => rfl
  | [_, _], _ => rfl
  | [_, _, _], _ => rfl

/-- A comma parts three digits from the ones that follow. -/
theorem groupLowFirst_append (hgroup : group.length = 3) (hne : digits ≠ []) :
    groupLowFirst (group ++ digits) = group ++ [','] ++ groupLowFirst digits := by
  obtain ⟨d, rest, rfl⟩ := List.exists_cons_of_ne_nil hne
  have hrest := flatMap_zipIdx_add_three rest (i := 1) Nat.one_pos
  match group, hgroup with
  | [a, b, c], _ =>
    -- The digit `d` comes to place three and gets its comma; all above it move up by three places.
    calc
      groupLowFirst ([a, b, c] ++ d :: rest) =
          [a, b, c] ++ [',', d] ++
            (rest.zipIdx (1 + 3)).flatMap fun digit => atPlace digit.1 digit.2 := by
        simp [groupLowFirst, atPlace]
      _ = [a, b, c] ++ [','] ++ groupLowFirst (d :: rest) := by
        rw [hrest]
        simp [groupLowFirst, atPlace]

/-! ## Groups from the highest digit down -/

/-- A first group of one to three digits and other groups of three. -/
structure AreGroups (first : Text) (rest : List Text) : Prop where
  one_le_length : 1 ≤ first.length
  length_le_three : first.length ≤ 3
  length_eq_three : ∀ group ∈ rest, group.length = 3

theorem AreGroups.ne_nil (h : AreGroups first rest) : first ≠ [] :=
  List.length_pos_iff.mp h.one_le_length

theorem AreGroups.nil_not_mem (h : AreGroups first rest) : [] ∉ first :: rest := by
  intro hnil
  rcases List.mem_cons.mp hnil with hfirst | hrest
  · exact h.ne_nil hfirst.symm
  · cases h.length_eq_three [] hrest

theorem areGroups_concat_iff :
    AreGroups first (rest ++ [group]) ↔ AreGroups first rest ∧ group.length = 3 := by
  constructor
  · rintro ⟨hone, hthree, hrest⟩
    exact ⟨⟨hone, hthree, fun other hother => hrest other (List.mem_append_left _ hother)⟩,
      hrest group List.mem_concat_self⟩
  · rintro ⟨⟨hone, hthree, hrest⟩, hgroup⟩
    refine ⟨hone, hthree, fun other hother => ?_⟩
    rcases List.mem_append.mp hother with hother | hother
    · exact hrest other hother
    · rwa [List.mem_singleton.mp hother]

/-- Digits that come in groups are put into these groups. -/
theorem AreGroups.groupLowFirst_reverse_flatten (h : AreGroups first rest) :
    (groupLowFirst (first :: rest).flatten.reverse).reverse = join [','] (first :: rest) := by
  induction rest using List.reverseRecOn with
  | nil =>
    have hshort : first.reverse.length ≤ 3 := by
      rw [List.length_reverse]
      exact h.length_le_three
    rw [List.flatten_singleton, groupLowFirst_of_length_le hshort, List.reverse_reverse]
    rfl
  | append_singleton rest group ih =>
    obtain ⟨hgroups, hgroup⟩ := areGroups_concat_iff.mp h
    have hfront : (first :: rest).flatten.reverse ≠ [] := by
      simp [hgroups.ne_nil]
    have hdigits : (first :: (rest ++ [group])).flatten.reverse =
        group.reverse ++ (first :: rest).flatten.reverse := by
      simp
    rw [hdigits, groupLowFirst_append (by simpa using hgroup) hfront, List.reverse_append,
      List.reverse_append, List.reverse_reverse, ih hgroups, ← List.cons_append,
      join_append (List.cons_ne_nil _ _) (List.cons_ne_nil _ _), ← List.append_assoc]
    rfl

/-- All digits come in groups. -/
theorem exists_areGroups (hne : digits ≠ []) :
    ∃ first rest, AreGroups first rest ∧ (first :: rest).flatten = digits := by
  induction hsize : digits.length using Nat.strongRecOn generalizing digits with
  | _ size ih =>
    by_cases hshort : digits.length ≤ 3
    · have hgroups : AreGroups digits [] :=
        ⟨List.length_pos_iff.mpr hne, hshort, fun _ hgroup => absurd hgroup List.not_mem_nil⟩
      exact ⟨digits, [], hgroups, List.flatten_singleton⟩
    · -- The lowest three digits are the last group, and there are digits in front of them.
      have hfront : (digits.take (digits.length - 3)).length = digits.length - 3 := by
        rw [List.length_take]
        omega
      have hlast : (digits.drop (digits.length - 3)).length = 3 := by
        rw [List.length_drop]
        omega
      obtain ⟨first, rest, hgroups, hflatten⟩ :=
        ih (digits.length - 3) (by omega) (List.length_pos_iff.mp (by omega)) hfront
      refine ⟨first, rest ++ [_], areGroups_concat_iff.mpr ⟨hgroups, hlast⟩, ?_⟩
      rw [← List.cons_append, List.flatten_append, hflatten, List.flatten_singleton,
        List.take_append_drop]

/-! ## Numerals in groups -/

/-- `t` is the numeral of `n` with its digits in groups. -/
structure IsGroupedNumeral (n : Nat) (t : Text) : Prop where
  /-- Without its commas the text is the numeral. -/
  filter_eq : t.filter (· ≠ ',') = numeral n
  head?_ne : t.head? ≠ some ','
  getLast?_ne : t.getLast? ≠ some ','
  /-- Between its commas stand one to three digits first, and three in each group behind them. -/
  areGroups : ∃ first rest, pieces ',' t = first :: rest ∧ AreGroups first rest

theorem isGroupedNumeral_grouped (n : Nat) : IsGroupedNumeral n (grouped n) := by
  obtain ⟨first, rest, hgroups, hnumeral⟩ := exists_areGroups (numeral_ne_nil n)
  have hjoin : grouped n = join [','] (first :: rest) := by
    rw [grouped, ← hnumeral, hgroups.groupLowFirst_reverse_flatten]
  have hcommas : ∀ group ∈ first :: rest, ',' ∉ group := by
    intro group hgroup hmem
    refine not_mem_numeral (c := ',') rfl n ?_
    rw [← hnumeral]
    exact List.mem_flatten.mpr ⟨group, hgroup, hmem⟩
  have hpieces : pieces ',' (grouped n) = first :: rest := by
    rw [hjoin, pieces_join (List.cons_ne_nil first rest) hcommas]
  have hfull : [] ∉ pieces ',' (grouped n) := by
    rw [hpieces]
    exact hgroups.nil_not_mem
  exact {
    filter_eq := by rw [← flatten_pieces, hpieces, hnumeral]
    head?_ne := head?_ne_of_pieces hfull
    getLast?_ne := getLast?_ne_of_pieces hfull
    areGroups := ⟨first, rest, hpieces, hgroups⟩ }

/-- Digits and groups determine the text. -/
theorem IsGroupedNumeral.eq_grouped (h : IsGroupedNumeral n t) : t = grouped n := by
  obtain ⟨first, rest, hpieces, hgroups⟩ := h.areGroups
  have hnumeral : (first :: rest).flatten = numeral n := by
    rw [← hpieces, flatten_pieces, h.filter_eq]
  calc
    t = join [','] (first :: rest) := by rw [← hpieces, join_pieces]
    _ = grouped n := by rw [← hgroups.groupLowFirst_reverse_flatten, hnumeral, grouped]

/-- **A grouped numeral is told by its groups.**  For every number it has the digits of the number,
one to three in the first group and three in every other, no comma at either end, and it is the only
text of that kind; so different numbers have different grouped numerals. -/
theorem isGroupedNumeral_iff_eq_grouped :
    (∀ n t, IsGroupedNumeral n t ↔ t = grouped n) ∧ Function.Injective grouped := by
  constructor
  · intro n t
    constructor
    · exact IsGroupedNumeral.eq_grouped
    · rintro rfl
      exact isGroupedNumeral_grouped n
  · intro m n h
    refine numeral_injective ?_
    calc
      numeral m = (grouped m).filter (· ≠ ',') := (isGroupedNumeral_grouped m).filter_eq.symm
      _ = (grouped n).filter (· ≠ ',') := by rw [h]
      _ = numeral n := (isGroupedNumeral_grouped n).filter_eq

/-- Where three divides the number of digits, the first group is full. -/
example : grouped 123456 = "123,456".toList := by decide

end SourceBundle.Text
