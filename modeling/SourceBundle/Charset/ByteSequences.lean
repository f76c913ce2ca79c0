/-!
# Encoded ranges of characters

In UTF-8 the characters from one code to another are those that one of a few sequences of byte
ranges encodes: a sequence stands for the encodings whose bytes lie in its ranges one by one
(`byteSequences`).  Characters of one encoded length are numbers in base 64 with a mark on each
digit, and a range of such numbers is cut where their leading digits change.
-/

namespace SourceBundle.Charset

/-- The sequences for the numbers from `first` to `last` with so many digits behind the leading one,
which carries `mark`. -/
def markedSequences : (digits mark first last : Nat) → List (List (Nat × Nat))
  | 0, mark, first, last => [[(mark + first, mark + last)]]
  | digits + 1, mark, first, last =>
    let unit := Nat.pow 64 (digits + 1)
    let under (lead low high : Nat) :=
      (markedSequences digits 0x80 low high).map ((mark + lead, mark + lead) :: ·)
    if first / unit = last / unit then under (first / unit) (first % unit) (last % unit)
    else
      let startsWhole := first % unit = 0
      let endsWhole := last % unit = unit - 1
      let front := if startsWhole then [] else under (first / unit) (first % unit) (unit - 1)
      let back := if endsWhole then [] else under (last / unit) 0 (last % unit)
      let low := if startsWhole then first / unit else first / unit + 1
      let high := if endsWhole then last / unit + 1 else last / unit
      let whole :=
        if low < high then
          [(mark + low, mark + high - 1) :: List.replicate (digits + 1) (0x80, 0xBF)]
        else []
      front ++ whole ++ back

/-- The codes of one encoded length: the number of bytes behind the leading one, the mark of the
leading byte, and the first and the last code.  No character has a code between the third and the
fourth row. -/
def encodedLengths : List (Nat × Nat × Nat × Nat) :=
  [(0, 0, 0, 0x7F), (1, 0xC0, 0x80, 0x7FF), (2, 0xE0, 0x800, 0xD7FF), (2, 0xE0, 0xE000, 0xFFFF),
   (3, 0xF0, 0x10000, 0x10FFFF)]

/-- The sequences of byte ranges that encode the characters with codes from `first` to `last`. -/
def byteSequences (first last : Nat) : List (List (Nat × Nat)) :=
  encodedLengths.flatMap fun (digits, mark, low, high) =>
    let low := max first low
    let high := min last high
    if low ≤ high then markedSequences digits mark low high else []

end SourceBundle.Charset
