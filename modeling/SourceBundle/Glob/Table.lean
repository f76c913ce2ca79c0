import SourceBundle.Glob.Match
import SourceBundle.Tails

/-!
# Matching by tables

The definition of `accepts` tries every way to split a path, of which there may be too many to try.
Here a pattern is worked through from its end, and after each element a table tells at which tails
of the path the elements from that one on match.  The answer is the same (`matches?_eq_accepts`),
and the work is bounded by the number of elements times the length of the path.
-/

namespace SourceBundle.Glob

open Tails

/-- The table with one element in front: `marks` belongs to the elements after it. -/
def Token.table : Token → Text → List Bool → List Bool
  | .literal d => sweep (fun _ => false) fun c _ next _ => c == d && next
  | .anyChar => sweep (fun _ => false) fun c _ next _ => c != '/' && next
  | .oneOf ms =>
    sweep (fun _ => false) fun c _ next _ => c != '/' && ms.any (Member.holds c) && next
  | .noneOf ms =>
    sweep (fun _ => false) fun c _ next _ => c != '/' && !ms.any (Member.holds c) && next
  | .anyRun => sweep id fun c here _ later => here || (c != '/' && later)
  | .anyComponents => fun path marks =>
    either marks (sweep id (fun c _ next later => (c == '/' && next) || later) path marks)

/-- The table of a pattern on a path. -/
def Pattern.table (p : Pattern) (path : Text) : List Bool :=
  p.foldr (fun token marks => token.table path marks) (Tails.table List.isEmpty path)

/-- The pattern matches the whole path. -/
def Pattern.matches? (p : Pattern) (path : Text) : Bool := first (p.table path)

theorem Token.table_eq (token : Token) (rest : Pattern) (path : Text) :
    token.table path (Tails.table (accepts rest) path) =
      Tails.table (accepts (token :: rest)) path := by
  cases token with
  | literal d => exact sweep_table rfl (fun _ _ => rfl) path
  | anyChar => exact sweep_table rfl (fun c s => by simp [accepts, afterOne]) path
  | oneOf ms => exact sweep_table rfl (fun _ _ => rfl) path
  | noneOf ms => exact sweep_table rfl (fun _ _ => rfl) path
  | anyRun => exact sweep_table rfl (fun _ _ => rfl) path
  | anyComponents =>
    have h : sweep id (fun c _ next later => (c == '/' && next) || later) path
        (Tails.table (accepts rest) path) = Tails.table (afterSlash (accepts rest)) path :=
      sweep_table rfl (fun _ _ => rfl) path
    simp only [Token.table, h, either_table]
    rfl

theorem Pattern.table_eq (p : Pattern) (path : Text) :
    p.table path = Tails.table (accepts p) path := by
  induction p with
  | nil => rfl
  | cons token rest ih =>
    have h : Pattern.table (token :: rest) path = token.table path (Pattern.table rest path) := rfl
    rw [h, ih, Token.table_eq]

/-- Matching by tables gives what the definition says. -/
theorem Pattern.matches?_eq_accepts (p : Pattern) (path : Text) :
    p.matches? path = accepts p path := by
  rw [Pattern.matches?, Pattern.table_eq, first_table]

end SourceBundle.Glob
