/-!
# Text

A text is the list of its characters, so every rule about texts is a rule about lists.  This
module holds the handful of operations that the rest of the library shares: taking a known lead
off a text, cutting it at a mark, splitting it at a separator and joining pieces again.

Splitting and joining with the same separator are inverse to each other in one direction
(`join_pieces`), which is what makes line-wise rules reversible.
-/

namespace SourceBundle

/-- A text: the list of its Unicode scalar values. -/
abbrev Text := List Char

namespace Text

/-! ## Leads and marks -/

/-- What follows `lead` in a text that starts with it. -/
def after? : (lead : Text) → Text → Option Text
  | [], t => some t
  | _ :: _, [] => none
  | a :: lead, b :: t => if a = b then after? lead t else none

/-- The text starts with `lead`. -/
def startsWith (lead t : Text) : Bool := (after? lead t).isSome

/-- What precedes `tail` in a text that ends with it. -/
def before? (tail t : Text) : Option Text := (after? tail.reverse t.reverse).map List.reverse

/-- The text ends with `tail`. -/
def endsWith (tail t : Text) : Bool := (before? tail t).isSome

/-- The two sides of the first occurrence of `mark`. -/
def cutAt? (mark : Text) : Text → Option (Text × Text)
  | [] => if mark.isEmpty then some ([], []) else none
  | c :: t =>
    match after? mark (c :: t) with
    | some rest => some ([], rest)
    | none => (cutAt? mark t).map fun sides => (c :: sides.1, sides.2)

/-- The text has `mark` in it. -/
def mentions (mark t : Text) : Bool := (cutAt? mark t).isSome

/-- What precedes the first occurrence of the character `mark`. -/
def beforeFirst? (mark : Char) : Text → Option Text
  | [] => none
  | c :: t => if c = mark then some [] else (beforeFirst? mark t).map (c :: ·)

/-- What precedes the last occurrence of the character `mark`. -/
def beforeLast? (mark : Char) : Text → Option Text
  | [] => none
  | c :: t =>
    match beforeLast? mark t with
    | some lead => some (c :: lead)
    | none => if c = mark then some [] else none

/-! ## Splitting and joining -/

variable {α : Type _} [DecidableEq α]

/-- The pieces of a list between the occurrences of `sep`; there is always at least one. -/
def pieces (sep : α) : List α → List (List α)
  | [] => [[]]
  | c :: t =>
    if c = sep then [] :: pieces sep t
    else
      match pieces sep t with
      | [] => [[c]]
      | piece :: rest => (c :: piece) :: rest

/-- The pieces put one after the other with `sep` between neighbours. -/
def join {α : Type _} (sep : List α) : List (List α) → List α
  | [] => []
  | [piece] => piece
  | piece :: rest => piece ++ sep ++ join sep rest

theorem pieces_ne_nil (sep : α) (t : List α) : pieces sep t ≠ [] := by
  cases t with
  | nil => simp [pieces]
  | cons c t =>
    by_cases h : c = sep
    · simp [pieces, h]
    · simp only [pieces, h, if_false]
      split <;> simp

theorem join_cons {α : Type _} {sep piece : List α} {rest : List (List α)} (h : rest ≠ []) :
    join sep (piece :: rest) = piece ++ sep ++ join sep rest := by
  cases rest with
  | nil => exact absurd rfl h
  | cons _ _ => rfl

/-- Joining the pieces of a list with their separator gives the list back. -/
theorem join_pieces (sep : α) (t : List α) : join [sep] (pieces sep t) = t := by
  induction t with
  | nil => rfl
  | cons c t ih =>
    by_cases h : c = sep
    · simp [pieces, h, join_cons (pieces_ne_nil sep t), ih]
    · simp only [pieces, h, if_false]
      cases hp : pieces sep t with
      | nil => exact absurd hp (pieces_ne_nil sep t)
      | cons piece rest =>
        rw [hp] at ih
        cases rest with
        | nil => simpa [join] using ih
        | cons _ _ => simpa [join] using ih

/-! ## Sizes and padding -/

/-- The number of bytes of the text's UTF-8 form. -/
def byteSize (t : Text) : Nat := (t.map Char.utf8Size).foldl (· + ·) 0

/-- The text moved to the right edge of a field of `width` characters. -/
def padLeft (width : Nat) (t : Text) : Text := List.replicate (width - t.length) ' ' ++ t

/-- The text at the left edge of a field of `width` characters. -/
def padRight (width : Nat) (t : Text) : Text := t ++ List.replicate (width - t.length) ' '

/-- The decimal numeral of a number. -/
def numeral (n : Nat) : Text := Nat.toDigits 10 n

theorem isDigit_of_mem_numeral {n : Nat} {c : Char} (h : c ∈ numeral n) : c.isDigit = true :=
  Nat.isDigit_of_mem_toDigits (by decide) (by decide) h

/-- A numeral holds digits only. -/
theorem not_mem_numeral {c : Char} (h : c.isDigit = false) (n : Nat) : c ∉ numeral n := by
  intro hmem
  rw [isDigit_of_mem_numeral hmem] at h
  cases h

theorem numeral_ne_nil (n : Nat) : numeral n ≠ [] := Nat.toDigits_ne_nil

/-- Different numbers have different numerals. -/
theorem numeral_injective : Function.Injective numeral := by
  intro m n h
  rw [← Nat.ofDigitChars_ten_toDigits (n := m), ← numeral, h, numeral,
    Nat.ofDigitChars_ten_toDigits]

/-- Capital ASCII letters become small ones; all else stays. -/
def asciiLower (t : Text) : Text := t.map Char.toLower

end Text

end SourceBundle
