import SourceBundle.Charset.Utf8
import SourceBundle.IgnoreFile.Match
import SourceBundle.Sorting

/-!
# Pattern expressions

The machine that recognises a pattern is made from an expression in reduced form.  In a sequence
neighbouring literals are one, and neither a sequence nor a choice stands right inside another of
its kind.  A choice between single characters, between single bytes or between classes is a class,
and branches that begin alike are a choice only between what follows.
-/

namespace SourceBundle.IgnoreFile

/-- An expression.  The ranges of classes are in ascending order and have gaps between them. -/
inductive Expression where
  | nothing
  | literal (bytes : List UInt8)
  | byteClass (ranges : List (Nat × Nat))
  | charClass (ranges : List (Nat × Nat))
  | repeated (body : Expression)
  | optional (body : Expression)
  | sequence (parts : List Expression)
  | choice (branches : List Expression)

namespace Expression

mutual

/-- The expressions are the same. -/
def isSame : Expression → Expression → Bool
  | .nothing, .nothing => true
  | .literal a, .literal b => a == b
  | .byteClass a, .byteClass b => a == b
  | .charClass a, .charClass b => a == b
  | .repeated a, .repeated b => a.isSame b
  | .optional a, .optional b => a.isSame b
  | .sequence a, .sequence b => areSame a b
  | .choice a, .choice b => areSame a b
  | _, _ => false

/-- The expressions of two lists are the same one by one. -/
def areSame : List Expression → List Expression → Bool
  | [], [] => true
  | a :: as, b :: bs => a.isSame b && areSame as bs
  | _, _ => false

end

/-! ## Classes -/

/-- A range in front of others that begin no earlier; ranges without a gap between them are
joined. -/
def joinRange (r : Nat × Nat) : List (Nat × Nat) → List (Nat × Nat)
  | [] => [r]
  | s :: rest => if s.1 ≤ r.2 + 1 then joinRange (r.1, max r.2 s.2) rest else r :: joinRange s rest

/-- The ranges in ascending order with gaps between them. -/
def joinRanges (ranges : List (Nat × Nat)) : List (Nat × Nat) :=
  match sortBy (fun r s => r.1 < s.1) ranges with
  | [] => []
  | r :: rest => joinRange r rest

/-- The bytes from `next` on that are in none of the ranges. -/
def otherBytes (next : Nat) : List (Nat × Nat) → List (Nat × Nat)
  | [] => if next ≤ 255 then [(next, 255)] else []
  | r :: rest =>
    if next < r.1 then (next, r.1 - 1) :: otherBytes (r.2 + 1) rest else otherBytes (r.2 + 1) rest

/-- The expression for one byte out of the ranges. -/
def ofBytes : List (Nat × Nat) → Expression
  | [(a, b)] => if a = b then .literal [UInt8.ofNat a] else .byteClass [(a, b)]
  | ranges => .byteClass ranges

/-- The expression for one character out of the ranges. -/
def ofChars : List (Nat × Nat) → Expression
  | [(a, b)] =>
    if a = b then .literal (String.utf8EncodeChar (Char.ofNat a)) else .charClass [(a, b)]
  | ranges => .charClass ranges

/-- All codes of the ranges are those of ASCII. -/
def areAscii (ranges : List (Nat × Nat)) : Bool := ranges.all (·.2 < 128)

/-- The range of a literal that is one character. -/
def literalChar? : Expression → Option (Nat × Nat)
  | .literal bytes =>
    match Charset.utf8OfList? bytes with
    | some [c] => some (c.toNat, c.toNat)
    | _ => none
  | _ => none

/-- The range of a literal that is one byte. -/
def literalByte? : Expression → Option (Nat × Nat)
  | .literal [a] => some (a.toNat, a.toNat)
  | _ => none

/-- The characters of a class, when it is one of characters. -/
def classChars? : Expression → Option (List (Nat × Nat))
  | .charClass ranges => some ranges
  | .byteClass ranges => if areAscii ranges then some ranges else none
  | _ => none

/-- The bytes of a class, when it is one of bytes. -/
def classBytes? : Expression → Option (List (Nat × Nat))
  | .byteClass ranges => some ranges
  | .charClass ranges => if areAscii ranges then some ranges else none
  | _ => none

/-- The class that a choice is. -/
def classOf? (branches : List Expression) : Option Expression :=
  ((branches.mapM literalChar?).map fun rs => ofChars (joinRanges rs)) <|>
  ((branches.mapM literalByte?).map fun rs => ofBytes (joinRanges rs)) <|>
  ((branches.mapM classChars?).map fun rs => ofChars (joinRanges rs.flatten)) <|>
  ((branches.mapM classBytes?).map fun rs => ofBytes (joinRanges rs.flatten))

/-! ## Sequences -/

/-- The expressions in a row that an expression is. -/
def parts : Expression → List Expression
  | .nothing => []
  | .sequence es => es
  | e => [e]

/-- Joins neighbouring literals. -/
def joinLiterals : List Expression → List Expression
  | [] => []
  | e :: rest =>
    match e, joinLiterals rest with
    | .literal a, .literal b :: others => .literal (a ++ b) :: others
    | e, others => e :: others

/-- The expressions in a row. -/
def row (es : List Expression) : Expression :=
  match joinLiterals (es.flatMap parts) with
  | [] => .nothing
  | [e] => e
  | joined => .sequence joined

/-! ## Choices -/

/-- The branches between which an expression is a choice. -/
def branches : Expression → List Expression
  | .choice es => es
  | e => [e]

/-- The choice between expressions that do not begin alike. -/
def choiceOf (es : List Expression) : Expression :=
  match es.flatMap branches with
  | [e] => e
  | bs => (classOf? bs).getD (.choice bs)

/-- The expressions with which both lists begin. -/
def sharedFront : List Expression → List Expression → List Expression
  | a :: as, b :: bs => if a.isSame b then a :: sharedFront as bs else []
  | _, _ => []

/-- The parts with which all of the branches begin, when they are sequences. -/
def commonFront : List Expression → List Expression
  | .sequence es :: rest =>
    rest.foldl
      (fun front e => match e with
        | .sequence others => sharedFront front others
        | _ => [])
      es
  | _ => []

/-- The choice between expressions.  What follows the common front of the branches has no common
front, for the front is the longest, and the branches of a choice have none. -/
def choose (es : List Expression) : Expression :=
  match choiceOf es with
  | .choice bs =>
    match commonFront bs with
    | [] => .choice bs
    | front => row (front ++ [choiceOf (bs.map fun b => row (b.parts.drop front.length))])
  | e => e

/-! ## Patterns -/

/-- A slash. -/
def aSlash : Expression := .literal [slash]

/-- Any run of bytes. -/
def anything : Expression := .repeated (.byteClass [(0, 255)])

/-- One byte that is no slash. -/
def noSlash : Expression := .byteClass [(0, 46), (48, 255)]

end Expression

open Expression

mutual

/-- The expression of an element. -/
def Token.expression : Token → Expression
  | .literal bytes => .literal bytes
  | .anyByte => noSlash
  | .anyRun => .repeated noSlash
  | .leadingComponents => choose [.optional aSlash, row [anything, aSlash]]
  | .allBelow => row [aSlash, anything]
  | .innerComponents => choose [aSlash, row [aSlash, anything, aSlash]]
  | .byteClass negated ranges =>
    let members := joinRanges (ranges.map fun r => (r.1.toNat, r.2.toNat))
    ofBytes (if negated then otherBytes 0 members else members)
  | .alternatives [] => .nothing
  | .alternatives (branch :: branches) =>
    choose (row (expressionsOfAll branch) :: expressionsOfSome branches)

/-- The expressions of elements. -/
def expressionsOfAll : List Token → List Expression
  | [] => []
  | token :: tokens => token.expression :: expressionsOfAll tokens

/-- The expressions of branches. -/
def expressionsOfSome : List (List Token) → List Expression
  | [] => []
  | branch :: branches => row (expressionsOfAll branch) :: expressionsOfSome branches

end

/-- The expression of a pattern.  A pattern of leading components alone matches all. -/
def patternExpression (pattern : List Token) : Expression :=
  match pattern with
  | [.leadingComponents] => anything
  | _ => row (expressionsOfAll pattern)

end SourceBundle.IgnoreFile
