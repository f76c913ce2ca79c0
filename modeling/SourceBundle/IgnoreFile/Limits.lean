import SourceBundle.IgnoreFile.Weight

/-!
# Limits of wildcards

The patterns of one file are put to use together, and one of them that is beyond the limits takes
the others with it (`areUsable`).  There are three limits.  The byte ranges of a class have to run
forwards, constructs may be nested to a depth of 250, and the machines that recognise the patterns
may take 10 MiB.

A pattern that is a text, an extension or a directory with all that lies below it is recognised by
comparing texts and needs no machine.  One that ends in an extension has machines of its own, and
all others of a file share theirs.
-/

namespace SourceBundle.IgnoreFile

/-! ## Classes that run backwards -/

mutual

/-- The element has a class with a byte range that runs backwards. -/
def Token.isSpoilt : Token → Bool
  | .byteClass _ ranges => ranges.any fun r => r.2 < r.1
  | .alternatives branches => someSpoilt branches
  | _ => false

/-- One of the elements is spoilt. -/
def anySpoilt : List Token → Bool
  | [] => false
  | token :: tokens => token.isSpoilt || anySpoilt tokens

/-- One of the branches has a spoilt element. -/
def someSpoilt : List (List Token) → Bool
  | [] => false
  | branch :: branches => anySpoilt branch || someSpoilt branches

end

/-! ## Nesting -/

/-- The depth to which constructs may be nested. -/
def nestingLimit : Nat := 250

/-- The number of parts that an element adds to the sequence in which it stands. -/
def Token.parts : Token → Nat
  | .literal bytes => bytes.length
  | .allBelow => 2
  | .alternatives [] => 0
  | _ => 1

/-- A sequence of more than one part is a construct of its own. -/
def sequenceDepth (tokens : List Token) : Nat :=
  if (tokens.map Token.parts).foldl (· + ·) 0 = 1 then 0 else 1

mutual

/-- The depth of the constructs of an element.  Stars are repetitions, `**` a choice between
sequences with a repetition, and classes of more than one range are unions. -/
def Token.depth : Token → Nat
  | .literal _ => 0
  | .anyByte => 1
  | .anyRun => 2
  | .leadingComponents => 4
  | .allBelow => 1
  | .innerComponents => 4
  | .byteClass _ ranges => if ranges.length = 1 then 1 else 2
  | .alternatives [] => 0
  | .alternatives [branch] => 1 + (sequenceDepth branch + depthOfAll branch)
  | .alternatives (branch :: branches) =>
    2 + max (sequenceDepth branch + depthOfAll branch) (depthOfSome branches)

/-- The depth of the deepest of the elements. -/
def depthOfAll : List Token → Nat
  | [] => 0
  | token :: tokens => max token.depth (depthOfAll tokens)

/-- The depth of the deepest branch. -/
def depthOfSome : List (List Token) → Nat
  | [] => 0
  | branch :: branches =>
    max (sequenceDepth branch + depthOfAll branch) (depthOfSome branches)

end

/-- The pattern as a whole, which is a sequence, is nested too deeply. -/
def isTooDeep (pattern : List Token) : Bool := nestingLimit < 1 + depthOfAll pattern

/-! ## Machines -/

/-- The element is a literal character. -/
def Token.isLiteral : Token → Bool
  | .literal _ => true
  | _ => false

/-- The element is the given literal character of ASCII. -/
def Token.isByte (a : UInt8) : Token → Bool
  | .literal bytes => bytes == [a]
  | _ => false

/-- The code of the dot. -/
def dot : UInt8 := 46

/-- The element is a literal character that may stand in a name. -/
def Token.isInName (token : Token) : Bool := token.isLiteral && !token.isByte slash

/-- The pattern is for all names with a given extension. -/
def isExtension : List Token → Bool
  | .leadingComponents :: .anyRun :: first :: rest =>
    first.isByte dot && rest.all fun token => token.isInName && !token.isByte dot
  | _ => false

/-- The pattern is recognised by comparing texts. -/
def needsNoMachine (pattern : List Token) : Bool :=
  match pattern with
  | .leadingComponents :: rest => (!rest.isEmpty && rest.all Token.isLiteral) || isExtension pattern
  | _ =>
    match pattern.reverse with
    | .allBelow :: front => front.all Token.isLiteral
    | _ => !pattern.isEmpty && pattern.all Token.isLiteral

/-- The names that the pattern accepts end in one extension. -/
def endsInExtension (pattern : List Token) : Bool :=
  (pattern.reverse.takeWhile Token.isInName).any (Token.isByte dot)

/-- The weight that a machine may have: 10 MiB. -/
def weightLimit : Nat := 10 * 1024 * 1024

/-- The machines for the patterns are within the limit. -/
def areLight (patterns : List (List Token)) : Bool :=
  let expressions := patterns.map patternExpression
  machineWeight .fromStart expressions ≤ weightLimit &&
    machineWeight .fromEnd expressions ≤ weightLimit

/-- The patterns can be put to use together. -/
def areUsable (patterns : List (List Token)) : Bool :=
  let worked := patterns.filter fun pattern => !needsNoMachine pattern
  let (own, shared) := worked.partition endsInExtension
  patterns.all (fun pattern => !anySpoilt pattern && !isTooDeep pattern) &&
    own.all (fun pattern => areLight [pattern]) && areLight shared

end SourceBundle.IgnoreFile
