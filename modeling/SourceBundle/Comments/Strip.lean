import SourceBundle.Comments.Syntax
import SourceBundle.Text.Lines

/-!
# Removing comments

A text is read from left to right.  At each place a literal may begin, which is copied as a whole,
or a comment, which is erased but for its line feeds; any other character is copied.  So the
result is the text without some of its characters other than line feeds, and every line stays
where it was.  In the end white space at the ends of lines is trimmed.

A quote that opens no closed literal is a character like any other; a block comment that is not
closed goes on to the end of the text.
-/

namespace SourceBundle.Comments

/-! ## Literals -/

/-- The number of characters up to and with the closing delimiter of a literal, read from behind
the opening one. -/
def closingLength? (delimiter : Text) (acrossLines escaped : Bool) : Text → Option Nat
  | [] => none
  | c :: t =>
    if escaped then (closingLength? delimiter acrossLines false t).map (· + 1)
    else if c = '\\' then (closingLength? delimiter acrossLines true t).map (· + 1)
    else if c = '\n' ∧ acrossLines = false then none
    else if Text.startsWith delimiter (c :: t) then some delimiter.length
    else (closingLength? delimiter acrossLines false t).map (· + 1)

/-- The longest escape between single quotes, in bytes behind its first character. -/
def longestEscape : Nat := 8

/-- The length of a character literal, read from behind its opening quote and without it. -/
def characterLength? : Text → Option Nat
  | '\\' :: e :: t =>
    if e = '\n' then none
    else
      match Text.beforeFirst? '\'' t with
      | none => none
      | some escape =>
        if longestEscape < Text.byteSize escape || escape.contains '\n' then none
        else some (escape.length + 3)
  | c :: '\'' :: _ => if c = '\'' ∨ c = '\n' then none else some 2
  | _ => none

/-- The length of the literal with which a text begins, if `quote` opens one there. -/
def Quote.length? (quote : Quote) (t : Text) : Option Nat :=
  (Text.after? quote.delimiter t).bind fun inside =>
    match quote with
    | .inLine delimiter =>
      (closingLength? delimiter false false inside).map (· + delimiter.length)
    | .acrossLines delimiter =>
      (closingLength? delimiter true false inside).map (· + delimiter.length)
    | .character => (characterLength? inside).map (· + 1)

/-- The literal may go over several lines. -/
def Quote.isAcrossLines : Quote → Bool
  | .acrossLines _ => true
  | _ => false

/-! ## Comments -/

/-- The length of the block comment with which a text begins. -/
def blockLength? (block : Text × Text) (t : Text) : Option Nat :=
  (Text.after? block.1 t).map fun inside =>
    match Text.cutAt? block.2 inside with
    | some (comment, _) => block.1.length + comment.length + block.2.length
    | none => t.length

/-- The length of the comment to the end of the line with which a text begins. -/
def lineLength? (mark t : Text) : Option Nat :=
  if Text.startsWith mark t then some (t.takeWhile (· != '\n')).length else none

/-! ## Spans -/

/-- What becomes of a stretch of characters: it is copied, or only its line feeds are. -/
inductive Fate where
  | copied
  | erased
  deriving DecidableEq, Repr

/-- What is copied of one character. -/
def Fate.apply (fate : Fate) (c : Char) : Text :=
  match fate with
  | .copied => [c]
  | .erased => if c = '\n' then [c] else []

/-- The length and the fate of the literal or comment with which a text begins.  Literals go before
block comments and these before comments to the end of the line.  `isBare` tells that nothing but
white space has been copied on the current line. -/
def spanAt? (s : Syntax) (isBare : Bool) (t : Text) : Option (Nat × Fate) :=
  let literal :=
    s.quotes.findSome? fun quote =>
      (quote.length? t).map fun n =>
        (n, if s.dropsStatementTexts && quote.isAcrossLines && isBare then .erased else .copied)
  let comment :=
    (s.blocks.findSome? (blockLength? · t) <|> s.lineMarks.findSome? (lineLength? · t)).map
      fun n => (n, Fate.erased)
  literal <|> comment

/-- Whether the current line is bare after `copied` has been added to it. -/
def bareAfter (isBare : Bool) (copied : Text) : Bool :=
  copied.foldl (fun isBare c => c == '\n' || (isBare && Text.isBlank c)) isBare

/-- The text without its comments.  The next `pending` characters belong to a stretch that has been
recognised and meet its fate. -/
def strip (s : Syntax) (pending : Nat) (fate : Fate) (isBare : Bool) : Text → Text
  | [] => []
  | c :: t =>
    match pending with
    | pending + 1 =>
      let copied := fate.apply c
      copied ++ strip s pending fate (bareAfter isBare copied) t
    | 0 =>
      match spanAt? s isBare (c :: t) with
      | some (pending + 1, fate) =>
        let copied := fate.apply c
        copied ++ strip s pending fate (bareAfter isBare copied) t
      | _ => c :: strip s 0 .copied (bareAfter isBare [c]) t

/-- The length of the first line that names an interpreter. -/
def shebangLength (s : Syntax) (t : Text) : Nat :=
  if s.keepsShebang && Text.startsWith ['#', '!'] t then (t.takeWhile (· != '\n')).length else 0

/-- The text without its comments and without white space at the ends of lines. -/
def Syntax.removeComments (s : Syntax) (t : Text) : Text :=
  Text.trimLineEnds (strip s (shebangLength s t) .copied true t)

end SourceBundle.Comments
