import Mathlib.Data.List.Forall2
import SourceBundle.Bundle.Progress

/-!
# Results of steps that can fail

A chain of steps succeeds when each of them does.  The lemmas here take a successful chain apart, and
put one together, without looking into the steps.
-/

namespace SourceBundle

section Steps

variable {ε ε' α β : Type _}

@[simp] theorem isOk_ok (a : α) : (.ok a : Except ε α).isOk = true := rfl

@[simp] theorem isOk_error (e : ε) : (.error e : Except ε α).isOk = false := rfl

@[simp] theorem isOk_map (f : α → β) (x : Except ε α) : (x.map f).isOk = x.isOk := by
  cases x <;> rfl

theorem isOk_iff_exists {x : Except ε α} : x.isOk = true ↔ ∃ a, x = .ok a := by
  cases x <;> simp

theorem ok_bind (a : α) (f : α → Except ε β) : (.ok a >>= f) = f a := rfl

theorem bind_eq_ok {x : Except ε α} {f : α → Except ε β} {b : β} :
    (x >>= f) = .ok b ↔ ∃ a, x = .ok a ∧ f a = .ok b := by
  cases x with
  | error e => simp [bind, Except.bind]
  | ok a => simp [bind, Except.bind]

theorem bind_eq_error {x : Except ε α} {f : α → Except ε β} {e : ε} :
    (x >>= f) = .error e ↔ x = .error e ∨ ∃ a, x = .ok a ∧ f a = .error e := by
  cases x with
  | error e' => simp [bind, Except.bind]
  | ok a => simp [bind, Except.bind]

theorem map_eq_ok {x : Except ε α} {f : α → β} {b : β} :
    x.map f = .ok b ↔ ∃ a, x = .ok a ∧ f a = b := by
  cases x <;> simp [Except.map]

theorem map_eq_error {x : Except ε α} {f : α → β} {e : ε} :
    x.map f = .error e ↔ x = .error e := by
  cases x <;> simp [Except.map]

theorem mapError_eq_ok {x : Except ε α} {f : ε → ε'} {a : α} :
    x.mapError f = .ok a ↔ x = .ok a := by
  cases x <;> simp [Except.mapError]

end Steps

/-- Work on several items succeeds with one result for each. -/
theorem Progress.forall₂_of_tryAll {α β ε : Type} {work : α → Except ε β} {items : List α}
    {results : List β} (h : tryAll work items = .ok results) :
    List.Forall₂ (fun item result => work item = .ok result) items results := by
  induction items generalizing results with
  | nil =>
    obtain rfl : [] = results := Except.ok.inj h
    exact .nil
  | cons item rest ih =>
    rw [tryAll, bind_eq_ok] at h
    obtain ⟨result, hitem, h⟩ := h
    obtain ⟨found, hrest, h⟩ := bind_eq_ok.1 h
    obtain rfl : result :: found = results := Except.ok.inj h
    exact .cons hitem (ih hrest)

end SourceBundle
