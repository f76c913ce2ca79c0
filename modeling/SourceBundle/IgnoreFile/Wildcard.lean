import SourceBundle.Text.Basic

/-!
# Wildcards of ignore files

The lines of ignore files have a pattern language of their own.  Besides `?`, `*`, `**` and
bracketed classes it knows alternatives in braces and a backslash that makes the next character
literal; a bracket that no other closes stands for itself.  `**` at the start of a pattern and
before a slash stands for leading components, after a slash and at the end for all that lies
below, between two slashes for any number of components; in every other place it is two single
stars.
-/

namespace SourceBundle.IgnoreFile

/-- One element of a pattern. -/
inductive Token where
  | literal (bytes : List UInt8)
  | anyByte
  | anyRun
  | leadingComponents
  | allBelow
  | innerComponents
  | byteClass (negated : Bool) (ranges : List (UInt8 × UInt8))
  | alternatives (branches : List (List Token))
  deriving Repr

/-! ## Classes -/

/-- The byte ranges of the character range from `a` to `b`.  A range stretches from the last byte
of `a` to the first byte of `b`; their other bytes are members by themselves. -/
def byteRanges (a b : Char) : List (UInt8 × UInt8) :=
  let bytesA := String.utf8EncodeChar a
  let bytesB := String.utf8EncodeChar b
  if a = b then bytesA.map fun x => (x, x)
  else
    (bytesA.dropLast.map fun x => (x, x)) ++
      [(bytesA.getLastD 0, bytesB.headD 0)] ++ (bytesB.tail.map fun x => (x, x))

/-- What reading a class comes to: its character ranges and the number of characters up to and
with the closing bracket, no closing bracket, or a range that runs backwards. -/
inductive ClassReading where
  | closed (ranges : List (Char × Char)) (length : Nat)
  | unclosed
  | backwards

/-- Reads the inside of a class.  `read` holds the ranges so far, the last one first, `length`
counts the characters, and `pending` tells that a hyphen waits for the end of a range. -/
def readClass (read : List (Char × Char)) (pending : Bool) (length : Nat) : Text → ClassReading
  | [] => .unclosed
  | c :: t =>
    match read with
    | [] => readClass [(c, c)] false (length + 1) t
    | last :: others =>
      if c = ']' then
        .closed (if pending then (('-', '-') :: read).reverse else read.reverse) (length + 1)
      else if pending then
        if c < last.1 then .backwards
        else readClass ((last.1, c) :: others) false (length + 1) t
      else if c = '-' then readClass read true (length + 1) t
      else readClass ((c, c) :: read) false (length + 1) t

/-- The class that begins after an opening bracket: negated or not, and its reading. -/
def classAfter : Text → Bool × ClassReading
  | '!' :: t => (true, readClass [] false 1 t)
  | '^' :: t => (true, readClass [] false 1 t)
  | t => (false, readClass [] false 0 t)

/-! ## Reading -/

/-- A group of alternatives that is being read: the finished branches and the elements of the
current one, the last one first each. -/
structure Group where
  finished : List (List Token)
  current : List Token

/-- A pattern that is being read: the character before the next one, the groups from the innermost
out, the last of which is the pattern itself, and whether brackets are literal from here on. -/
structure Draft where
  prev : Option Char
  inner : List Group
  pattern : List Token
  literalBrackets : Bool

namespace Draft

/-- The draft of a pattern of which nothing has been read. -/
def start : Draft := ⟨none, [], [], false⟩

/-- The elements of the current branch, the last one first. -/
def current (d : Draft) : List Token :=
  match d.inner with
  | [] => d.pattern
  | group :: _ => group.current

/-- The draft with other elements in its current branch. -/
def withCurrent (d : Draft) (tokens : List Token) : Draft :=
  match d.inner with
  | [] => { d with pattern := tokens }
  | group :: outer => { d with inner := ⟨group.finished, tokens⟩ :: outer }

/-- Adds an element. -/
def push (d : Draft) (token : Token) : Draft := d.withCurrent (token :: d.current)

/-- The branch matches nothing but the empty text because it holds nothing. -/
def isVoid (tokens : List Token) : Bool :=
  tokens.all fun
    | .alternatives [] => true
    | _ => false

/-- Closes the innermost group; branches that hold nothing are left out. -/
def close? (d : Draft) : Option Draft :=
  match d.inner with
  | [] => none
  | group :: outer =>
    let branches := (group.current :: group.finished).reverse.map List.reverse
    some (push { d with inner := outer } (.alternatives (branches.filter (!isVoid ·))))

/-- Two stars may stand for components here: after a slash and, inside a group, after a comma or an
opening brace. -/
def isAtBoundary (d : Draft) : Bool :=
  d.prev == some '/' || (!d.inner.isEmpty && (d.prev == some ',' || d.prev == some '\x7b'))

/-- Adds what two stars mean whose next character is `next`, and tells how many characters after
the first star they take. -/
def doubleStar (d : Draft) (next : Option Char) : Draft × Nat :=
  match d.current with
  | [] =>
    match next with
    | none => (d.push .leadingComponents, 1)
    | some '/' => (d.push .leadingComponents, 2)
    | some _ => ((d.push .anyRun).push .anyRun, 1)
  | last :: before =>
    let below (kind : Token) : Draft :=
      d.withCurrent <|
        (match last with
        | .leadingComponents => .leadingComponents
        | .allBelow => .allBelow
        | _ => kind) :: before
    if !d.isAtBoundary then ((d.push .anyRun).push .anyRun, 1)
    else
      match next with
      | none => (below .allBelow, 1)
      | some '/' => (below .innerComponents, 2)
      | some c =>
        if (c == ',' || c == '\x7d') && !d.inner.isEmpty then (below .allBelow, 1)
        else ((d.push .anyRun).push .anyRun, 1)

/-- Takes the character `c`, which `t` follows; gives the new draft and the number of further
characters that belong to the element. -/
def take? (d : Draft) (c : Char) (t : Text) : Option (Draft × Nat) :=
  if c = '?' then some (d.push .anyByte, 0)
  else if c = '*' then
    match t with
    | '*' :: next => some (d.doubleStar next.head?)
    | _ => some (d.push .anyRun, 0)
  else if c = '[' && !d.literalBrackets then
    match classAfter t with
    | (negated, .closed ranges length) =>
      let bytes := ranges.flatMap fun range => byteRanges range.1 range.2
      some (d.push (.byteClass negated bytes), length)
    | (_, .unclosed) =>
      some ({ d with literalBrackets := true }.push (.literal (String.utf8EncodeChar '[')), 0)
    | (_, .backwards) => none
  else if c = '\x7b' then some ({ d with inner := ⟨[], []⟩ :: d.inner }, 0)
  else if c = '\x7d' then d.close?.map (·, 0)
  else if c = ',' then
    match d.inner with
    | [] => some (d.push (.literal (String.utf8EncodeChar ',')), 0)
    | group :: outer =>
      some ({ d with inner := ⟨group.current :: group.finished, []⟩ :: outer }, 0)
  else if c = '\\' then
    match t with
    | [] => none
    | e :: _ => some (d.push (.literal (String.utf8EncodeChar e)), 1)
  else some (d.push (.literal (String.utf8EncodeChar c)), 0)

/-- Reads on; the next `skip` characters belong to an element that has been taken already. -/
def read (d : Draft) (skip : Nat) : Text → Option Draft
  | [] => some d
  | c :: t =>
    match skip with
    | skip + 1 => read { d with prev := some c } skip t
    | 0 =>
      match d.take? c t with
      | none => none
      | some (d, skip) => read { d with prev := some c } skip t

end Draft

/-- Reads a pattern.  There is none when a group is left open or closed too often, when the text
ends in a backslash, and when a range runs backwards. -/
def pattern? (t : Text) : Option (List Token) :=
  (Draft.start.read 0 t).bind fun d => if d.inner.isEmpty then some d.pattern.reverse else none

end SourceBundle.IgnoreFile
