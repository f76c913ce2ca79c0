/-!
# Predicates on the tails of a list

Matching asks again and again whether a predicate holds of what is left of a list, and what is left
is always one of its tails.  A table keeps the answers, the one for the list itself first, so each
question is asked once.

`sweep` computes, from the table of one predicate, the table of another whose value at a tail
depends on that tail's first element, on the first predicate there and one element later, and on its
own value one element later (`sweep_table`).
-/

namespace SourceBundle.Tails

variable {α : Type}

/-- The values of a predicate at the tails of a list, from the list itself to the empty one. -/
def table (p : List α → Bool) : List α → List Bool
  | [] => [p []]
  | a :: s => p (a :: s) :: table p s

/-- The first value of a table: that of the list itself. -/
def first (marks : List Bool) : Bool := marks.headD false

/-- A table made from the end on.  At the empty tail `stop` turns the old value into the new one; at
a tail that begins with `a` the new value is `step a here next later`, where `here` and `next` are
the old values there and one element later, and `later` is the new value one element later. -/
def sweep (stop : Bool → Bool) (step : α → (here next later : Bool) → Bool) :
    List α → List Bool → List Bool
  | [], marks => [stop (first marks)]
  | a :: s, marks =>
    let later := sweep stop step s marks.tail
    step a (first marks) (first marks.tail) (first later) :: later

/-- The values of two tables joined by "or". -/
def either (marks others : List Bool) : List Bool := marks.zipWith (· || ·) others

@[simp]
theorem first_table (p : List α → Bool) (s : List α) : first (table p s) = p s := by
  cases s <;> rfl

/-- A predicate that obeys the equations of a sweep has the table that the sweep makes. -/
theorem sweep_table {stop : Bool → Bool} {step : α → Bool → Bool → Bool → Bool}
    {p q : List α → Bool} (h_nil : q [] = stop (p []))
    (h_cons : ∀ a s, q (a :: s) = step a (p (a :: s)) (p s) (q s)) (s : List α) :
    sweep stop step s (table p s) = table q s := by
  induction s with
  | nil => simp [sweep, table, first, h_nil]
  | cons a s ih =>
    have tail_eq : (table p (a :: s)).tail = table p s := rfl
    simp only [sweep, tail_eq, ih, first_table]
    simp [table, h_cons]

theorem either_table (p q : List α → Bool) (s : List α) :
    either (table p s) (table q s) = table (fun t => p t || q t) s := by
  induction s with
  | nil => rfl
  | cons a s ih => simpa [either, table] using ih

end SourceBundle.Tails
