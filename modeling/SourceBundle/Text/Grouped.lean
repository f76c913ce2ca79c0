import SourceBundle.Text.Basic

/-!
# Grouped numerals

Counts are shown with a comma before every third digit from the right.  The digits are counted from
the lowest one, so a comma comes with the digit above it.
-/

namespace SourceBundle.Text

/-- What stands for the digit `c` when `i` digits are below it: a comma parts it from them where they
are whole groups of three. -/
def atPlace (c : Char) (i : Nat) : Text := if 0 < i ∧ i % 3 = 0 then [',', c] else [c]

/-- Digits from the lowest up, with a comma after every three that others follow. -/
def groupLowFirst (digits : Text) : Text :=
  digits.zipIdx.flatMap fun digit => atPlace digit.1 digit.2

/-- The decimal numeral of `n` in groups of three digits. -/
def grouped (n : Nat) : Text := (groupLowFirst (numeral n).reverse).reverse

end SourceBundle.Text
