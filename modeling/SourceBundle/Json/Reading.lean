import SourceBundle.Json.Number

/-!
# Reading JSON by expectation

A document with a known layout is read in one pass, each value under the expectation that the
layout has at that point.  The first problem in the order of the text decides how reading fails:
the text ends too early, it is not JSON, or it is JSON of another layout.

A record may be written as an object, each of whose fields may be left out but not repeated, or as
a list of all its fields in order.  `null` stands for a field that is left out.
-/

namespace SourceBundle.Json.Reading

/-- How reading fails. -/
inductive Fault where
  /-- The text ends too early. -/
  | cutShort
  /-- The text is not JSON. -/
  | malformed
  /-- A value has the wrong type, or a field is unknown, repeated or missing. -/
  | unsuited
  deriving DecidableEq, Repr

/-- A step of reading: what it finds, and the text that is left. -/
abbrev Step (α : Type) := Except Fault (α × Text)

/-- The text without the JSON white space at its start. -/
def skipSpace (t : Text) : Text :=
  t.dropWhile fun c => c == ' ' || c == '\n' || c == '\t' || c == '\r'

/-! ## Strings -/

/-- The character that a one-letter escape stands for. -/
def escapeMeaning? (c : Char) : Option Char :=
  if c = '"' || c = '\\' || c = '/' then some c
  else if c = 'b' then some (Char.ofNat 0x08)
  else if c = 'f' then some (Char.ofNat 0x0C)
  else if c = 'n' then some '\n'
  else if c = 'r' then some '\r'
  else if c = 't' then some '\t'
  else none

/-- The value of a hexadecimal digit. -/
def hexValue? (c : Char) : Option Nat :=
  let n := c.toNat
  if 48 ≤ n ∧ n ≤ 57 then some (n - 48)
  else if 97 ≤ n ∧ n ≤ 102 then some (n - 87)
  else if 65 ≤ n ∧ n ≤ 70 then some (n - 55)
  else none

/-- Where the reader of a string stands. -/
inductive StringState where
  | plain
  | escape
  /-- Inside the digits of a code: the leading surrogate before it, the digits to come, and the
  value of those read. -/
  | code (leading : Option Nat) (digits value : Nat)
  /-- A leading surrogate has been read; the backslash of the trailing one is due. -/
  | trailSlash (leading : Nat)
  /-- The letter after that backslash is due. -/
  | trailLetter (leading : Nat)

/-- Four bytes are left, as the digits of a code need. -/
def hasFourBytes (t : Text) : Bool := 4 ≤ Text.byteSize (t.take 4)

/-- What a code of four digits leads to: another character, or the wait for a trailing
surrogate. -/
def codeMeaning (leading : Option Nat) (n : Nat) : Option (Char ⊕ StringState) :=
  let trails := 0xDC00 ≤ n ∧ n ≤ 0xDFFF
  let leads := 0xD800 ≤ n ∧ n ≤ 0xDBFF
  match leading with
  | some high =>
    if trails then some (.inl (Char.ofNat (0x10000 + (high - 0xD800) * 0x400 + (n - 0xDC00))))
    else none
  | none =>
    if trails then none else if leads then some (.inr (.trailSlash n)) else
      some (.inl (Char.ofNat n))

/-- Reads a string from behind its opening quote.  `read` holds its characters so far, the last
one first. -/
def stringFrom (read : Text) (state : StringState) : Text → Step Text
  | [] => .error .cutShort
  | c :: t =>
    match state with
    | .plain =>
      if c = '"' then .ok (read.reverse, t)
      else if c = '\\' then stringFrom read .escape t
      else if c.toNat < 0x20 then .error .malformed
      else stringFrom (c :: read) .plain t
    | .escape =>
      match escapeMeaning? c with
      | some e => stringFrom (e :: read) .plain t
      | none =>
        if c = 'u' then
          if hasFourBytes t then stringFrom read (.code none 4 0) t else .error .cutShort
        else .error .malformed
    | .code leading digits value =>
      match hexValue? c with
      | none => .error .malformed
      | some d =>
        if 1 < digits then stringFrom read (.code leading (digits - 1) (16 * value + d)) t
        else
          match codeMeaning leading (16 * value + d) with
          | none => .error .malformed
          | some (.inl e) => stringFrom (e :: read) .plain t
          | some (.inr state) => stringFrom read state t
    | .trailSlash leading =>
      if c = '\\' then stringFrom read (.trailLetter leading) t else .error .malformed
    | .trailLetter leading =>
      if c = 'u' then
        if hasFourBytes t then stringFrom read (.code (some leading) 4 0) t
        else .error .cutShort
      else .error .malformed

/-! ## Numbers -/

/-- The digits at the start of a text, of which there has to be one, and what follows. -/
def someDigits (t : Text) : Step Text :=
  match t with
  | [] => .error .cutShort
  | c :: _ =>
    if Number.isDigit c then .ok (t.takeWhile Number.isDigit, t.dropWhile Number.isDigit)
    else .error .malformed

/-- The digits after a point at the start of a text, or none when there is no point. -/
def fraction : Text → Step (Option Text)
  | '.' :: t => (someDigits t).map fun (digits, t) => (some digits, t)
  | t => .ok (none, t)

/-- The exponent at the start of a text, or none. -/
def exponent : Text → Step (Option Int)
  | [] => .ok (none, [])
  | c :: t =>
    let number (sign : Int) (t : Text) : Step (Option Int) :=
      (someDigits t).map fun (digits, t) => (some (sign * Number.digitsValue digits), t)
    if c = 'e' || c = 'E' then
      match t with
      | '-' :: t => number (-1) t
      | '+' :: t => number 1 t
      | t => number 1 t
    else .ok (none, c :: t)

/-- The number with the given digits before its point and `t` from there on.  One that cannot be
kept is no JSON. -/
def numberFrom (negative : Bool) (digits t : Text) : Step Number :=
  (fraction t).bind fun (places, t) =>
    (exponent t).bind fun (e, t) =>
      match Number.ofParts? negative digits places e with
      | none => .error .malformed
      | some n => .ok (n, t)

/-- Reads a number that begins with a digit or, when `negative`, stood after a minus sign. -/
def numberAfterSign (negative : Bool) (t : Text) : Step Number :=
  (someDigits t).bind fun (digits, rest) =>
    if digits.head? = some '0' && 1 < digits.length then .error .malformed
    else numberFrom negative digits rest

/-! ## Values -/

/-- What a value begins with: a scalar in full, or the opening of a list or an object. -/
inductive Item where
  | null
  | flag (b : Bool)
  | number (n : Number)
  | text (t : Text)
  | listStart
  | objectStart

/-- Reads the rest of a keyword. -/
def keyword (item : Item) : (expected : Text) → Text → Step Item
  | [], t => .ok (item, t)
  | _ :: _, [] => .error .cutShort
  | a :: expected, b :: t => if a = b then keyword item expected t else .error .malformed

/-- Reads what the next value begins with. -/
def item (t : Text) : Step Item :=
  match skipSpace t with
  | [] => .error .cutShort
  | c :: t =>
    if c = 'n' then keyword .null ['u', 'l', 'l'] t
    else if c = 't' then keyword (.flag true) ['r', 'u', 'e'] t
    else if c = 'f' then keyword (.flag false) ['a', 'l', 's', 'e'] t
    else if c = '"' then (stringFrom [] .plain t).map fun (s, t) => (.text s, t)
    else if c = '[' then .ok (.listStart, t)
    else if c = '\x7b' then .ok (.objectStart, t)
    else if c = '-' then (numberAfterSign true t).map fun (n, t) => (.number n, t)
    else if Number.isDigit c then (numberAfterSign false (c :: t)).map fun (n, t) => (.number n, t)
    else .error .malformed

/-- An expectation: how a value goes on that begins in a given way. -/
abbrev Layout (α : Type) := Item → Text → Step α

/-- Reads a value that may be left out. -/
def optional {α : Type} (layout : Layout α) (t : Text) : Step (Option α) :=
  (item t).bind fun
    | (.null, t) => .ok (none, t)
    | (start, t) => (layout start t).map fun (a, t) => (some a, t)

/-- A truth value. -/
def flag : Layout Bool
  | .flag b, t => .ok (b, t)
  | _, _ => .error .unsuited

/-- A whole number of 64 bits. -/
def whole : Layout Int
  | .number (.whole n), t => if n < Int.pow 2 63 then .ok (n, t) else .error .unsuited
  | _, _ => .error .unsuited

/-- A text. -/
def text : Layout Text
  | .text s, t => .ok (s, t)
  | _, _ => .error .unsuited

/-- The next item of a list, or none at its end.  Items but the first stand after a comma. -/
def nextItem (isFirst : Bool) (t : Text) : Except Fault (Option Text) :=
  match skipSpace t with
  | [] => .error .cutShort
  | ']' :: _ => .ok none
  | c :: t =>
    if isFirst then .ok (some (c :: t))
    else if c = ',' then
      match skipSpace t with
      | [] => .error .cutShort
      | ']' :: _ => .error .malformed
      | t => .ok (some t)
    else .error .malformed

/-- The items of a list of texts; `fuel` bounds their number. -/
def textItems (isFirst : Bool) : (fuel : Nat) → Text → Step (List Text)
  | 0, _ => .error .cutShort
  | fuel + 1, t =>
    (nextItem isFirst t).bind fun
      | none => .ok ([], (skipSpace t).tail)
      | some t =>
        (item t).bind fun (start, t) =>
          (text start t).bind fun (s, t) =>
            (textItems false fuel t).map fun (rest, t) => (s :: rest, t)

/-- A list of texts. -/
def texts : Layout (List Text)
  | .listStart, t => textItems true (t.length + 1) t
  | _, _ => .error .unsuited

/-! ## Records -/

/-- A field of a record of type `σ`: its name, and how its value changes the record. -/
structure Field (σ : Type) where
  name : Text
  read : Text → Step (σ → σ)

/-- The field whose value is read by `layout` and, when it is not left out, put in by `put`. -/
def Field.of {σ α : Type} (name : String) (layout : Layout α) (put : Option α → σ → σ) :
    Field σ :=
  ⟨name.toList, fun t => (optional layout t).map fun (value, t) => (put value, t)⟩

/-- The next member of an object, or none at its end; the text then starts with its key. -/
def nextMember (isFirst : Bool) (t : Text) : Except Fault (Option Text) :=
  match skipSpace t with
  | [] => .error .cutShort
  | '\x7d' :: _ => .ok none
  | c :: t =>
    if isFirst then .ok (some (c :: t))
    else if c = ',' then
      match skipSpace t with
      | [] => .error .cutShort
      | '\x7d' :: _ => .error .malformed
      | t => .ok (some t)
    else .error .malformed

/-- Reads a key. -/
def key : Text → Step Text
  | '"' :: t => stringFrom [] .plain t
  | _ => .error .malformed

/-- Reads the colon between a key and its value. -/
def colon (t : Text) : Except Fault Text :=
  match skipSpace t with
  | [] => .error .cutShort
  | ':' :: t => .ok t
  | _ => .error .malformed

/-- The members of an object; `seen` are the keys read so far, and `fuel` bounds their number. -/
def members {σ : Type} (fields : List (Field σ)) (seen : List Text) (value : σ) :
    (fuel : Nat) → Text → Step σ
  | 0, _ => .error .cutShort
  | fuel + 1, t =>
    (nextMember seen.isEmpty t).bind fun
      | none => .ok (value, (skipSpace t).tail)
      | some t =>
        (key t).bind fun (name, t) =>
          match fields.find? fun field => field.name == name with
          | none => .error .unsuited
          | some field =>
            if seen.contains name then .error .unsuited
            else
              (colon t).bind fun t =>
                (field.read t).bind fun (change, t) =>
                  members fields (name :: seen) (change value) fuel t

/-- The end of a list that holds all the fields of a record. -/
def listEnd (t : Text) : Except Fault Text :=
  match skipSpace t with
  | [] => .error .cutShort
  | ']' :: t => .ok t
  | _ => .error .malformed

/-- The fields of a record one after the other. -/
def inOrder {σ : Type} (value : σ) (isFirst : Bool) : List (Field σ) → Text → Step σ
  | [], t => (listEnd t).map fun t => (value, t)
  | field :: fields, t =>
    (nextItem isFirst t).bind fun
      | none => .error .unsuited
      | some t =>
        (field.read t).bind fun (change, t) => inOrder (change value) false fields t

/-- A record: an object, or the list of its fields. -/
def record {σ : Type} (fields : List (Field σ)) (blank : σ) : Layout σ
  | .objectStart, t => members fields [] blank (t.length + 1) t
  | .listStart, t => inOrder blank true fields t
  | _, _ => .error .unsuited

/-- Reads a whole document; only white space may follow its value. -/
def document {α : Type} (layout : Layout α) (t : Text) : Except Fault α :=
  (item t).bind fun (start, t) =>
    (layout start t).bind fun (value, t) =>
      if (skipSpace t).isEmpty then .ok value else .error .malformed

end SourceBundle.Json.Reading
