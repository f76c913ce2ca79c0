import SourceBundle.Text.Basic

/-!
# Numbers of JSON

A number is whole, or it is written with a fraction or an exponent and then stands for a double.
So does a whole number that needs more than 64 bits.  A number whose double is beyond the finite
ones cannot be kept at all.

That double is found in two roundings.  The digits are gathered into a significand of 64 bits, and
what no longer fits moves the decimal point or is dropped; the double of the significand is then
multiplied by the double of the power of ten, and the product is rounded again.  Near the largest
double this differs from rounding the number itself.
-/

namespace SourceBundle.Json

/-- A number: whole, or a double. -/
inductive Number where
  | whole (n : Int)
  | fractional
  deriving DecidableEq, Repr

namespace Number

/-! ## Digits -/

/-- The character is a decimal digit. -/
def isDigit (c : Char) : Bool := '0' ≤ c && c ≤ '9'

/-- The numeral of value `n` with one more digit. -/
def withDigit (n : Nat) (digit : Char) : Nat := 10 * n + (digit.toNat - 48)

/-- The number of which the digits are the numeral. -/
def digitsValue (digits : Text) : Nat := digits.foldl withDigit 0

/-- A significand is below this bound. -/
def significandBound : Nat := Nat.pow 2 64

/-- Appends digits to the numeral of value `n` up to the first that would take it to the bound;
gives the value and the digits from that one on. -/
def gather (n : Nat) : Text → Nat × Text
  | [] => (n, [])
  | c :: t => if withDigit n c < significandBound then gather (withDigit n c) t else (n, c :: t)

/-- A decimal number `significand · 10 ^ exponent`. -/
structure Scaled where
  significand : Nat
  exponent : Int
  deriving DecidableEq, Repr

/-- The number with the given digits before the point and after it, as far as they fit.  Digits
before the point that do not fit each raise the exponent; those after it are dropped. -/
def scaled (digits places : Text) : Scaled :=
  let whole := gather 0 digits
  let all := gather whole.1 places
  ⟨all.1, (whole.2.length : Int) - (places.length - all.2.length : Nat)⟩

/-! ## Doubles -/

/-- The number next to `n` that has at most 53 significant bits; of two that are equally near, the
one whose last bit is zero. -/
def nearestDouble (n : Nat) : Nat :=
  let unit := Nat.pow 2 (n.log2 - 52)
  let kept := n / unit
  let cut := n % unit
  if unit < 2 * cut || (unit == 2 * cut && kept % 2 == 1) then (kept + 1) * unit
  else kept * unit

/-- The smallest number that is rounded beyond the finite doubles. -/
def doubleLimit : Nat := Nat.pow 2 1024 - Nat.pow 2 970

/-- The largest exponent whose power of ten is a finite double. -/
def exponentLimit : Int := 308

/-- The product of significand and power of ten is beyond the finite doubles. -/
def Scaled.isBeyondDoubles (s : Scaled) : Bool :=
  s.significand != 0 && 0 ≤ s.exponent &&
    (exponentLimit < s.exponent ||
      doubleLimit ≤ nearestDouble s.significand * nearestDouble (Nat.pow 10 s.exponent.toNat))

/-! ## Numbers from their parts -/

/-- The largest size of a whole number that is kept as one. -/
def wholeLimit (negative : Bool) : Nat := if negative then Nat.pow 2 63 else Nat.pow 2 64 - 1

/-- The number of the given digits, decimal places and exponent.  One that is beyond the doubles
cannot be kept, and minus zero is no whole number. -/
def ofParts? (negative : Bool) (digits : Text) (places : Option Text) (exponent : Option Int) :
    Option Number :=
  let m := digitsValue digits
  let s := scaled digits (places.getD [])
  if ({ s with exponent := s.exponent + exponent.getD 0 } : Scaled).isBeyondDoubles then none
  else if places.isSome || exponent.isSome || wholeLimit negative < m || (negative && m == 0)
  then some .fractional
  else some (.whole (if negative then -(m : Int) else m))

end Number

end SourceBundle.Json
