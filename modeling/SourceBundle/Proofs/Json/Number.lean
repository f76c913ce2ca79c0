import SourceBundle.Json.Number

/-!
# Numerals as numbers

The numeral of a whole number of 64 bits is kept as that number: its digits all fit into the
significand, and its double is far from the largest one.
-/

namespace SourceBundle.Json.Number

/-! ## Digits -/

theorem isDigit_of_mem_numeral {n : Nat} {c : Char} (h : c ∈ Text.numeral n) : isDigit c :=
  Text.isDigit_of_mem_numeral h

theorem digitsValue_numeral (n : Nat) : digitsValue (Text.numeral n) = n :=
  Nat.ofDigitChars_ten_toDigits

/-- Only the numeral of zero begins with a zero. -/
theorem eq_zero_of_head?_numeral {n : Nat} (h : (Text.numeral n).head? = some '0') : n = 0 := by
  induction n using Nat.strongRecOn with
  | _ n ih =>
    rw [Text.numeral, Nat.toDigits_eq_if (by omega)] at h
    split at h
    · exact Nat.digitChar_eq_zero.mp (Option.some.inj h)
    · rename_i hlarge
      have hhead : (Text.numeral (n / 10)).head? = some '0' := by
        cases hdigits : Text.numeral (n / 10) with
        | nil => exact absurd hdigits (Text.numeral_ne_nil _)
        | cons c digits =>
          rw [← Text.numeral, hdigits] at h
          exact h
      have hzero := ih (n / 10) (by omega) hhead
      omega

theorem le_foldl_withDigit (digits : Text) (n : Nat) : n ≤ digits.foldl withDigit n := by
  induction digits generalizing n with
  | nil => exact Nat.le_refl n
  | cons c digits ih =>
    have hstep : n ≤ withDigit n c := by
      rw [withDigit]
      omega
    exact Nat.le_trans hstep (ih (withDigit n c))

/-- Digits of a value below the bound all fit. -/
theorem gather_of_lt {digits : Text} {n : Nat} (h : digits.foldl withDigit n < significandBound) :
    gather n digits = (digits.foldl withDigit n, []) := by
  induction digits generalizing n with
  | nil => rfl
  | cons c digits ih =>
    rw [List.foldl_cons] at h ⊢
    have hfits : withDigit n c < significandBound :=
      Nat.lt_of_le_of_lt (le_foldl_withDigit digits (withDigit n c)) h
    rw [gather, if_pos hfits, ih h]

theorem scaled_numeral {n : Nat} (h : n < significandBound) :
    scaled (Text.numeral n) [] = ⟨n, 0⟩ := by
  have hvalue : (Text.numeral n).foldl withDigit 0 = n := digitsValue_numeral n
  have hfits : gather 0 (Text.numeral n) = (n, []) := by
    rw [gather_of_lt (by rwa [hvalue]), hvalue]
  rw [scaled, hfits]
  rfl

/-! ## Doubles -/

theorem nearestDouble_le (n : Nat) : nearestDouble n ≤ 2 * n + 1 := by
  have hunit : Nat.pow 2 (n.log2 - 52) ≤ n + 1 := by
    by_cases hzero : n = 0
    · subst hzero
      decide
    · have hself : 2 ^ n.log2 ≤ n := Nat.log2_self_le hzero
      have hless : 2 ^ (n.log2 - 52) ≤ 2 ^ n.log2 := Nat.pow_le_pow_right (by omega) (by omega)
      exact Nat.le_succ_of_le (Nat.le_trans hless hself)
  have hkept : n / Nat.pow 2 (n.log2 - 52) * Nat.pow 2 (n.log2 - 52) ≤ n := Nat.div_mul_le_self _ _
  rw [nearestDouble]
  split
  · rw [Nat.add_mul, Nat.one_mul]
    omega
  · omega

theorem not_isBeyondDoubles {n : Nat} (h : n < significandBound) :
    Scaled.isBeyondDoubles ⟨n, 0⟩ = false := by
  have hone : nearestDouble 1 = 1 := by decide
  have hdouble := nearestDouble_le n
  have hlimit : 2 * significandBound < doubleLimit := by decide +kernel
  have hbelow : ¬ doubleLimit ≤ nearestDouble n := by omega
  simp [Scaled.isBeyondDoubles, hone, hbelow, exponentLimit]

/-- A numeral of 64 bits stands for its number. -/
theorem ofParts?_numeral {n : Nat} (h : n < significandBound) :
    ofParts? false (Text.numeral n) none none = some (.whole n) := by
  have hbound : significandBound = wholeLimit false + 1 := by decide
  have hwhole : ¬ wholeLimit false < n := by omega
  have hscaled : ({ scaled (Text.numeral n) [] with
      exponent := (scaled (Text.numeral n) []).exponent + 0 } : Scaled) = ⟨n, 0⟩ := by
    rw [scaled_numeral h]
    rfl
  simp only [ofParts?, Option.getD_none, hscaled, not_isBeyondDoubles h, digitsValue_numeral]
  simp [hwhole]

end SourceBundle.Json.Number
