import SourceBundle.Charset.Utf8
import SourceBundle.IgnoreFile.Wildcard
import SourceBundle.Tails

/-!
# Matching of wildcards

Patterns of ignore files are matched byte by byte: `?` and a class take one byte, so a character
outside ASCII takes as many of them as it has bytes.

What a pattern matches is said by `acceptsAll`.  Whole paths are matched by tables over the tails of
the path, with one pass for each element (`acceptsPath`); the two agree (`marksOfAll_table`).
-/

namespace SourceBundle.IgnoreFile

/-! ## What patterns match -/

/-- The code of the slash. -/
def slash : UInt8 := 47

/-- `rest` accepts what follows some slash. -/
def afterSlash (rest : List UInt8 → Bool) : List UInt8 → Bool
  | [] => false
  | b :: s => (b == slash && rest s) || afterSlash rest s

/-- Some split has a slash-free first part and a second part that `rest` accepts. -/
def afterRun (rest : List UInt8 → Bool) : List UInt8 → Bool
  | [] => rest []
  | b :: s => rest (b :: s) || (b != slash && afterRun rest s)

/-- `rest` accepts some tail. -/
def afterAny (rest : List UInt8 → Bool) : List UInt8 → Bool
  | [] => rest []
  | b :: s => rest (b :: s) || afterAny rest s

/-- `rest` accepts what follows the given bytes. -/
def afterLiteral (rest : List UInt8 → Bool) : List UInt8 → List UInt8 → Bool
  | [], s => rest s
  | _ :: _, [] => false
  | a :: bytes, b :: s => a == b && afterLiteral rest bytes s

/-- The first byte passes `test`, and `rest` accepts what follows. -/
def afterByte (test : UInt8 → Bool) (rest : List UInt8 → Bool) : List UInt8 → Bool
  | [] => false
  | b :: s => test b && rest s

mutual

/-- The element matches some first part of the bytes, and `rest` accepts the second part. -/
def Token.accepts : Token → (List UInt8 → Bool) → List UInt8 → Bool
  | .literal bytes, rest => afterLiteral rest bytes
  | .anyByte, rest => afterByte (· != slash) rest
  | .anyRun, rest => afterRun rest
  | .leadingComponents, rest => fun s => rest s || afterSlash rest s
  | .allBelow, rest => afterByte (· == slash) (afterAny rest)
  | .innerComponents, rest => afterByte (· == slash) fun s => rest s || afterSlash rest s
  | .byteClass negated ranges, rest =>
    afterByte (fun b => (ranges.any fun r => r.1 ≤ b && b ≤ r.2) != negated) rest
  | .alternatives [], rest => rest
  | .alternatives (branch :: branches), rest => fun s =>
    acceptsAll branch rest s || acceptsSome branches rest s

/-- The elements match some first part one after the other, and `rest` accepts what is left. -/
def acceptsAll : List Token → (List UInt8 → Bool) → List UInt8 → Bool
  | [], rest => rest
  | token :: tokens, rest => token.accepts (acceptsAll tokens rest)

/-- One of the branches matches some first part, and `rest` accepts what is left. -/
def acceptsSome : List (List Token) → (List UInt8 → Bool) → List UInt8 → Bool
  | [], _ => fun _ => false
  | branch :: branches, rest => fun s => acceptsAll branch rest s || acceptsSome branches rest s

end

/-! ## Tables -/

open Tails

mutual

/-- The table with one element in front: `marks` belongs to what comes after it. -/
def Token.marks (path : List UInt8) : Token → List Bool → List Bool
  | .literal bytes => fun marks =>
    bytes.foldr (fun a => sweep (fun _ => false) (fun b _ next _ => a == b && next) path) marks
  | .anyByte => sweep (fun _ => false) (fun b _ next _ => b != slash && next) path
  | .anyRun => sweep id (fun b here _ later => here || (b != slash && later)) path
  | .leadingComponents => fun marks =>
    either marks
      (sweep (fun _ => false) (fun b _ next later => (b == slash && next) || later) path marks)
  | .allBelow => fun marks =>
    sweep (fun _ => false) (fun b _ next _ => b == slash && next) path
      (sweep id (fun _ here _ later => here || later) path marks)
  | .innerComponents => fun marks =>
    sweep (fun _ => false) (fun b _ next _ => b == slash && next) path
      (either marks
        (sweep (fun _ => false) (fun b _ next later => (b == slash && next) || later) path marks))
  | .byteClass negated ranges =>
    sweep (fun _ => false)
      (fun b _ next _ => ((ranges.any fun r => r.1 ≤ b && b ≤ r.2) != negated) && next) path
  | .alternatives [] => id
  | .alternatives (branch :: branches) => fun marks =>
    either (marksOfAll path branch marks) (marksOfSome path branches marks)

/-- The table with the elements of a pattern in front. -/
def marksOfAll (path : List UInt8) : List Token → List Bool → List Bool
  | [] => id
  | token :: tokens => fun marks => token.marks path (marksOfAll path tokens marks)

/-- The table with one of the branches in front. -/
def marksOfSome (path : List UInt8) : List (List Token) → List Bool → List Bool
  | [] => fun _ => table (fun _ => false) path
  | branch :: branches => fun marks =>
    either (marksOfAll path branch marks) (marksOfSome path branches marks)

end

/-- The pattern matches the whole path.  A pattern of leading components alone matches all. -/
def acceptsPath (pattern : List Token) (path : Text) : Bool :=
  match pattern with
  | [.leadingComponents] => true
  | _ =>
    let bytes := Charset.utf8List path
    first (marksOfAll bytes pattern (table List.isEmpty bytes))

theorem afterSlash_table (rest : List UInt8 → Bool) (path : List UInt8) :
    sweep (fun _ => false) (fun b _ next later => (b == slash && next) || later) path
        (table rest path) = table (afterSlash rest) path :=
  sweep_table rfl (fun _ _ => rfl) path

theorem afterByte_table (test : UInt8 → Bool) (rest : List UInt8 → Bool) (path : List UInt8) :
    sweep (fun _ => false) (fun b _ next _ => test b && next) path (table rest path) =
      table (afterByte test rest) path :=
  sweep_table rfl (fun _ _ => rfl) path

theorem afterLiteral_table (bytes : List UInt8) (rest : List UInt8 → Bool) (path : List UInt8) :
    bytes.foldr (fun a => sweep (fun _ => false) (fun b _ next _ => a == b && next) path)
        (table rest path) = table (afterLiteral rest bytes) path := by
  induction bytes with
  | nil =>
    have h : afterLiteral rest [] = rest := by funext s; cases s <;> rfl
    simp [h]
  | cons a bytes ih =>
    rw [List.foldr_cons, ih]
    exact sweep_table rfl (fun _ _ => rfl) path

mutual

theorem Token.marks_table (path : List UInt8) (token : Token) (rest : List UInt8 → Bool) :
    token.marks path (table rest path) = table (token.accepts rest) path := by
  match token with
  | .literal bytes => simpa [Token.marks, Token.accepts] using afterLiteral_table bytes rest path
  | .anyByte => exact afterByte_table (· != slash) rest path
  | .anyRun => exact sweep_table rfl (fun _ _ => rfl) path
  | .leadingComponents =>
    simp only [Token.marks, Token.accepts, afterSlash_table, either_table]
  | .allBelow =>
    have h : sweep id (fun _ here _ later => here || later) path (table rest path) =
        table (afterAny rest) path := sweep_table rfl (fun _ _ => rfl) path
    simp only [Token.marks, Token.accepts, h]
    exact afterByte_table (· == slash) _ path
  | .innerComponents =>
    simp only [Token.marks, Token.accepts, afterSlash_table, either_table]
    exact afterByte_table (· == slash) _ path
  | .byteClass negated ranges => exact afterByte_table _ rest path
  | .alternatives [] => rfl
  | .alternatives (branch :: branches) =>
    simp only [Token.marks, Token.accepts]
    rw [marksOfAll_table path branch rest, marksOfSome_table path branches rest, either_table]

/-- The table of a pattern tells at which tails the pattern matches a first part and `rest` accepts
what is left. -/
theorem marksOfAll_table (path : List UInt8) (tokens : List Token) (rest : List UInt8 → Bool) :
    marksOfAll path tokens (table rest path) = table (acceptsAll tokens rest) path := by
  match tokens with
  | [] => rfl
  | token :: tokens =>
    simp only [marksOfAll, acceptsAll]
    rw [marksOfAll_table path tokens rest, Token.marks_table path token]

theorem marksOfSome_table (path : List UInt8) (branches : List (List Token))
    (rest : List UInt8 → Bool) :
    marksOfSome path branches (table rest path) = table (acceptsSome branches rest) path := by
  match branches with
  | [] => rfl
  | branch :: branches =>
    simp only [marksOfSome, acceptsSome]
    rw [marksOfAll_table path branch rest, marksOfSome_table path branches rest, either_table]

end

end SourceBundle.IgnoreFile
