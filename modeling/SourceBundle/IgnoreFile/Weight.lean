import SourceBundle.Charset.ByteSequences
import SourceBundle.IgnoreFile.Expression

/-!
# The weight of machines

Expressions are recognised by machines, one that reads from the start and one that reads from the
end.  A machine is weighed by its states, 32 bytes each, with 8 bytes for every byte range that a
state looks for and 4 for every way that it leads on to.

Most parts of an expression weigh the same in both machines.  A choice between words shares what the
words have in common at the end where the machine begins, and so does a class of characters that are
not all ASCII.
-/

namespace SourceBundle.IgnoreFile

/-- The end from which a machine reads. -/
inductive Direction where
  | fromStart
  | fromEnd

/-- The weight of a state. -/
def stateWeight : Nat := 32

/-- The weight of so many byte ranges in a state. -/
def rangesWeight (ranges : Nat) : Nat := 8 * ranges

/-- The weight of so many ways on from a state. -/
def waysWeight (ways : Nat) : Nat := 4 * ways

/-- The weight of the states for one byte out of so many ranges. -/
def classWeight (ranges : Nat) : Nat := 2 * stateWeight + rangesWeight ranges

/-- The weight of a choice between things of the given weights; a single one is no choice. -/
def choiceWeight (ws : List Nat) : Nat :=
  let weight := ws.foldl (· + ·) 0
  if ws.length ≤ 1 then weight else 2 * stateWeight + waysWeight ws.length + weight

/-! ## Words -/

/-- The words before the first empty one, those from there to the next and so on. -/
def sections : List (List UInt8) → List (List (List UInt8))
  | [] => [[]]
  | [] :: words => [] :: sections words
  | word :: words =>
    match sections words with
    | [] => [[word]]
    | first :: rest => (word :: first) :: rest

/-- The sections of what is left of the words at a state.  Empty words at the start count once. -/
def sectionsAtState (words : List (List UInt8)) : List (List (List UInt8)) :=
  match words with
  | [] :: rest => [] :: sections (rest.dropWhile List.isEmpty)
  | _ => sections words

/-- What is left of the words that begin with `a`. -/
def wordsAfter (a : UInt8) (words : List (List UInt8)) : List (List UInt8) :=
  words.filterMap fun
    | [] => none
    | b :: rest => if b == a then some rest else none

/-- The weight of the states for words of at most the given length that are left.  Each section has
a state that looks for the first bytes of its words, and one more state leads on to the sections
and, between them, to the end. -/
def wordsWeight : Nat → List (List UInt8) → Nat
  | 0, _ => 0
  | length + 1, words =>
    if words.all List.isEmpty then 0
    else
      let parts := sectionsAtState words
      let weights := parts.map fun part =>
        match (part.filterMap List.head?).eraseDups with
        | [] => 0
        | firsts =>
          let later := firsts.map fun a => wordsWeight length (wordsAfter a part)
          stateWeight + (if firsts.length = 1 then 0 else rangesWeight firsts.length) +
            waysWeight 1 + later.foldl (· + ·) 0
      stateWeight + waysWeight (parts.length - 1) + weights.foldl (· + ·) 0

/-- The weight of a choice between words, read in one direction. -/
def wordChoiceWeight (direction : Direction) (words : List (List UInt8)) : Nat :=
  let read := match direction with
    | .fromStart => words
    | .fromEnd => words.map List.reverse
  stateWeight + wordsWeight ((words.map List.length).foldl max 0) read

/-! ## Classes of characters -/

/-- The byte ranges with which the sequences begin. -/
def firstRanges (sequences : List (List (Nat × Nat))) : List (Nat × Nat) :=
  (sequences.filterMap List.head?).eraseDups

/-- What is left of the sequences that begin with `r`. -/
def sequencesAfter (r : Nat × Nat) (sequences : List (List (Nat × Nat))) :
    List (List (Nat × Nat)) :=
  sequences.filterMap fun
    | [] => none
    | s :: rest => if s == r then some rest else none

/-- The states that read the sequences, for at most the given number of bytes.  A state is what is
left to read at it. -/
def sequenceStates : Nat → List (List (Nat × Nat)) → List (List (List (Nat × Nat)))
  | 0, _ => []
  | length + 1, sequences =>
    if sequences.all List.isEmpty then []
    else
      sequences ::
        (firstRanges sequences).flatMap fun r => sequenceStates length (sequencesAfter r sequences)

/-- The ranges with which a sequence begins, one, two and so on up to all of them. -/
def fronts (sequence : List (Nat × Nat)) : List (List (Nat × Nat)) :=
  (List.range sequence.length).map fun n => sequence.take (n + 1)

/-- The weight of one character out of the ranges.  Read from the start, states at which the same is
left are one; read from the end, states from which the same leads to the start are one. -/
def charClassWeight (direction : Direction) (ranges : List (Nat × Nat)) : Nat :=
  if Expression.areAscii ranges then classWeight ranges.length
  else
    let sequences := ranges.flatMap fun r => Charset.byteSequences r.1 r.2
    match direction with
    | .fromStart =>
      let weights := (sequenceStates 4 sequences).eraseDups.map fun state =>
        stateWeight + rangesWeight (firstRanges state).length
      stateWeight + weights.foldl (· + ·) 0
    | .fromEnd =>
      2 * stateWeight + waysWeight sequences.length +
        stateWeight * (sequences.flatMap fronts).eraseDups.length

/-! ## Expressions -/

/-- The bytes of a literal. -/
def Expression.word? : Expression → Option (List UInt8)
  | .literal bytes => some bytes
  | _ => none

mutual

/-- The weight of an expression. -/
def Expression.weight (direction : Direction) : Expression → Nat
  | .nothing => stateWeight
  | .literal bytes => stateWeight * bytes.length
  | .byteClass ranges => classWeight ranges.length
  | .charClass ranges => charClassWeight direction ranges
  | .repeated body => stateWeight + waysWeight 2 + body.weight direction
  | .optional body => 2 * stateWeight + waysWeight 2 + body.weight direction
  | .sequence parts => (weightsOf direction parts).foldl (· + ·) 0
  | .choice branches =>
    match branches.mapM Expression.word? with
    | some words => wordChoiceWeight direction words
    | none => choiceWeight (weightsOf direction branches)

/-- The weights of expressions. -/
def weightsOf (direction : Direction) : List Expression → List Nat
  | [] => []
  | e :: es => e.weight direction :: weightsOf direction es

end

/-- The weight of the states that frame a pattern.  The machine that reads from the start also marks
where a match begins and ends. -/
def frameWeight : Direction → Nat
  | .fromStart => 5 * stateWeight
  | .fromEnd => 3 * stateWeight

/-- The weight of a machine for the given patterns. -/
def machineWeight (direction : Direction) (patterns : List Expression) : Nat :=
  stateWeight + choiceWeight (patterns.map fun pattern =>
    frameWeight direction + (weightsOf direction pattern.parts).foldl (· + ·) 0)

end SourceBundle.IgnoreFile
