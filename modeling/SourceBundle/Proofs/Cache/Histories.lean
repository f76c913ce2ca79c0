import Mathlib.Data.List.Dedup
import SourceBundle.Cache

/-!
# Histories of caches

What may happen with a cache can be told from what has happened, without the cache (`IsHistory`).  A
key that has been acquired since the last release is answered as it was then (`Serves`).  For any
other key a resource is made first, and the answer is what came of it, be it a failure.

What callers rely on follows by looking at one event and what was before it (`IsHistory.standsIn`).
Between two releases a key has one answer (`IsHistory.unique`), so nothing is made for a key that has
one; a failure is no answer, so after it a resource is to be made again.
-/

namespace SourceBundle.Cache

variable {κ σ ε ρ : Type}

/-! ## What happened since the last release -/

/-- The event is a release. -/
def Event.isReleased : Event κ ε ρ → Bool
  | .released => true
  | _ => false

/-- The key that was acquired. -/
def Event.acquiredKey? : Event κ ε ρ → Option κ
  | .acquired key (.ok _) => some key
  | _ => none

/-- What has happened since the last release. -/
def sinceRelease (log : List (Event κ ε ρ)) : List (Event κ ε ρ) :=
  log.takeWhile fun event => !event.isReleased

/-- Since the last release the key has been acquired, and was answered with this reference. -/
def Serves (log : List (Event κ ε ρ)) (key : κ) (reference : Reference ρ) : Prop :=
  .acquired key (.ok reference) ∈ sinceRelease log

/-- The keys that were acquired, each once. -/
def acquiredKeys [DecidableEq κ] (log : List (Event κ ε ρ)) : List κ :=
  (log.filterMap Event.acquiredKey?).dedup

theorem mem_acquiredKeys [DecidableEq κ] {log : List (Event κ ε ρ)} {key : κ} :
    key ∈ acquiredKeys log ↔ ∃ reference, .acquired key (.ok reference) ∈ log := by
  rw [acquiredKeys, List.mem_dedup, List.mem_filterMap]
  constructor
  · rintro ⟨event, hevent, hkey⟩
    cases event with
    | acquired k answer =>
      cases answer with
      | ok reference =>
        obtain rfl : k = key := Option.some.inj hkey
        exact ⟨reference, hevent⟩
      | error e => cases hkey
    | _ => cases hkey
  · rintro ⟨reference, hevent⟩
    exact ⟨_, hevent, rfl⟩

section Serves

variable {log later earlier : List (Event κ ε ρ)} {event : Event κ ε ρ} {key : κ}
  {reference : Reference ρ}

theorem serves_cons_iff (hevent : event.isReleased = false) :
    Serves (event :: log) key reference ↔
      event = .acquired key (.ok reference) ∨ Serves log key reference := by
  rw [Serves, sinceRelease, List.takeWhile_cons_of_pos (by simp [hevent]), List.mem_cons, eq_comm]
  rfl

/-- An event that is neither a release nor an acquisition changes no answer. -/
theorem serves_cons_of_acquiredKey?_eq_none (hevent : event.isReleased = false)
    (hkey : event.acquiredKey? = none) :
    Serves (event :: log) key reference ↔ Serves log key reference := by
  refine (serves_cons_iff hevent).trans (or_iff_right ?_)
  rintro rfl
  cases hkey

theorem not_serves_released : ¬ Serves (.released :: log) key reference := List.not_mem_nil

/-- Making a resource is no answer, and what came of it is one. -/
theorem serves_acquired_made_iff {k : κ} {outcome : Except ε (Reference ρ)} :
    Serves (.acquired k outcome :: .made k outcome :: log) key reference ↔
      k = key ∧ outcome = .ok reference ∨ Serves log key reference := by
  rw [serves_cons_iff rfl, serves_cons_of_acquiredKey?_eq_none rfl rfl, Event.acquired.injEq]

/-- A repeated answer adds nothing to those that stand already. -/
theorem serves_again_iff {k : κ} {kept : Reference ρ} (hkept : Serves log k kept) :
    Serves (.acquired k (.ok kept) :: log) key reference ↔ Serves log key reference := by
  refine (serves_cons_iff rfl).trans (or_iff_right_of_imp fun heq => ?_)
  cases heq
  exact hkept

/-- An answer stands until the next release. -/
theorem serves_append (hlater : .released ∉ later) :
    Serves (later ++ .acquired key (.ok reference) :: earlier) key reference := by
  induction later with
  | nil => exact (serves_cons_iff rfl).mpr (.inl rfl)
  | cons event later ih =>
    rw [List.mem_cons, not_or] at hlater
    cases event with
    | released => exact absurd rfl hlater.1
    | _ => exact (serves_cons_iff rfl).mpr (.inr (ih hlater.2))

/-- An answer was given lately or has stood for longer. -/
theorem Serves.mem_or (h : Serves (later ++ earlier) key reference) :
    .acquired key (.ok reference) ∈ later ∨ Serves earlier key reference := by
  induction later with
  | nil => exact .inr h
  | cons event later ih =>
    have hrest : event = .acquired key (.ok reference) ∨ Serves (later ++ earlier) key reference := by
      cases event with
      | released => exact absurd h not_serves_released
      | _ => exact (serves_cons_iff rfl).mp h
    obtain rfl | hrest := hrest
    · exact .inl List.mem_cons_self
    · exact (ih hrest).imp_left (List.mem_cons_of_mem event)

end Serves

/-! ## Histories -/

section Histories

variable [DecidableEq κ]

/-- What may have happened with a cache, the latest first. -/
inductive IsHistory : List (Event κ ε ρ) → Prop
  | nil : IsHistory []
  /-- A key is answered as before. -/
  | again {log : List (Event κ ε ρ)} {key : κ} {reference : Reference ρ} (h : IsHistory log)
      (hserves : Serves log key reference) : IsHistory (.acquired key (.ok reference) :: log)
  /-- A key without an answer is answered by what comes of making a resource. -/
  | anew {log : List (Event κ ε ρ)} {key : κ} {outcome : Except ε (Reference ρ)} (h : IsHistory log)
      (hnone : ∀ reference, ¬ Serves log key reference) :
      IsHistory (.acquired key outcome :: .made key outcome :: log)
  | released {log : List (Event κ ε ρ)} (h : IsHistory log) : IsHistory (.released :: log)
  /-- The keys that were acquired since the last release are counted. -/
  | counted {log : List (Event κ ε ρ)} (h : IsHistory log) :
      IsHistory (.counted (acquiredKeys (sinceRelease log)).length :: log)
  | gaveUp {log : List (Event κ ε ρ)} {address : Nat} (h : IsHistory log) :
      IsHistory (.gaveUp address :: log)

variable {log later earlier : List (Event κ ε ρ)} {event : Event κ ε ρ} {key : κ}
  {reference : Reference ρ}

/-- Between two releases a key has one answer. -/
theorem IsHistory.unique (h : IsHistory log) {reference' : Reference ρ}
    (hserves : Serves log key reference) (hserves' : Serves log key reference') :
    reference = reference' := by
  induction h with
  | nil => cases hserves
  | again h hkept ih =>
    exact ih ((serves_again_iff hkept).mp hserves) ((serves_again_iff hkept).mp hserves')
  | @anew log k outcome h hnone ih =>
    obtain ⟨rfl, rfl⟩ | hserves := serves_acquired_made_iff.mp hserves
    · obtain ⟨-, heq⟩ | hserves' := serves_acquired_made_iff.mp hserves'
      · cases heq
        rfl
      · exact absurd hserves' (hnone reference')
    · obtain ⟨rfl, -⟩ | hserves' := serves_acquired_made_iff.mp hserves'
      · exact absurd hserves (hnone reference)
      · exact ih hserves hserves'
  | released h ih => exact absurd hserves not_serves_released
  | counted h ih =>
    exact ih ((serves_cons_of_acquiredKey?_eq_none rfl rfl).mp hserves)
      ((serves_cons_of_acquiredKey?_eq_none rfl rfl).mp hserves')
  | gaveUp h ih =>
    exact ih ((serves_cons_of_acquiredKey?_eq_none rfl rfl).mp hserves)
      ((serves_cons_of_acquiredKey?_eq_none rfl rfl).mp hserves')

/-! ## Events and what came before them -/

/-- How an event stands in a history. -/
inductive StandsIn (later : List (Event κ ε ρ)) : Event κ ε ρ → List (Event κ ε ρ) → Prop
  /-- The event and what was before it are a history. -/
  | alone {event : Event κ ε ρ} {earlier : List (Event κ ε ρ)} (h : IsHistory (event :: earlier)) :
      StandsIn later event earlier
  /-- A resource was to be made, and the next event is the answer. -/
  | answered {key : κ} {outcome : Except ε (Reference ρ)} {earlier front : List (Event κ ε ρ)}
      (hlater : later = front ++ [.acquired key outcome])
      (h : IsHistory (.acquired key outcome :: .made key outcome :: earlier)) :
      StandsIn later (.made key outcome) earlier

theorem StandsIn.cons (h : StandsIn later event earlier) (last : Event κ ε ρ) :
    StandsIn (last :: later) event earlier := by
  cases h with
  | alone h => exact .alone h
  | @answered key outcome earlier front hlater h =>
    exact .answered (by rw [hlater, List.cons_append]) h

/-- Where a history goes on by one event, that event is last or stands behind. -/
theorem StandsIn.of_cons {last : Event κ ε ρ} (h : IsHistory (last :: log))
    (hlog : later ++ event :: earlier = last :: log)
    (hbefore : ∀ {later}, later ++ event :: earlier = log → StandsIn later event earlier) :
    StandsIn later event earlier := by
  cases later with
  | nil =>
    obtain ⟨rfl, rfl⟩ := List.cons.inj hlog
    exact .alone h
  | cons first later => exact (hbefore (List.cons.inj hlog).2).cons first

theorem IsHistory.standsIn (h : IsHistory (later ++ event :: earlier)) :
    StandsIn later event earlier := by
  generalize hlog : later ++ event :: earlier = log at h
  induction h generalizing later with
  | nil => cases List.append_eq_nil_iff.mp hlog |>.2
  | again h hserves ih => exact .of_cons (.again h hserves) hlog ih
  | @anew log key outcome h hnone ih =>
    cases later with
    | nil =>
      obtain ⟨rfl, rfl⟩ := List.cons.inj hlog
      exact .alone (.anew h hnone)
    | cons first later =>
      obtain ⟨rfl, hmade⟩ := List.cons.inj hlog
      cases later with
      | nil =>
        obtain ⟨rfl, rfl⟩ := List.cons.inj hmade
        exact .answered (List.nil_append _).symm (.anew h hnone)
      | cons second later => exact ((ih (List.cons.inj hmade).2).cons second).cons _
  | released h ih => exact .of_cons (.released h) hlog ih
  | counted h ih => exact .of_cons (.counted h) hlog ih
  | gaveUp h ih => exact .of_cons (.gaveUp h) hlog ih

/-- A key that has an answer is answered so. -/
theorem IsHistory.answer_eq {answer : Except ε (Reference ρ)}
    (h : IsHistory (later ++ .acquired key answer :: earlier))
    (hserves : Serves earlier key reference) : answer = .ok reference := by
  cases h.standsIn with
  | alone h =>
    cases h with
    | again h hkept => rw [h.unique hserves hkept]
    | anew h hnone =>
      exact absurd ((serves_cons_of_acquiredKey?_eq_none rfl rfl).mp hserves) (hnone reference)

/-- For a key without an answer a resource was to be made. -/
theorem IsHistory.exists_made {answer : Except ε (Reference ρ)}
    (h : IsHistory (later ++ .acquired key answer :: earlier))
    (hnone : ∀ reference, ¬ Serves earlier key reference) :
    ∃ rest, earlier = .made key answer :: rest := by
  cases h.standsIn with
  | alone h =>
    cases h with
    | again h hkept => exact absurd hkept (hnone _)
    | anew h hnone => exact ⟨_, rfl⟩

/-- A resource is made only for a key without an answer, and then the key is answered. -/
theorem IsHistory.of_made {outcome : Except ε (Reference ρ)}
    (h : IsHistory (later ++ .made key outcome :: earlier)) :
    (∀ reference, ¬ Serves earlier key reference) ∧
      ∃ front, later = front ++ [.acquired key outcome] := by
  cases h.standsIn with
  | alone h => cases h
  | answered hlater h =>
    refine ⟨?_, _, hlater⟩
    cases h with
    | again h hkept => cases h
    | anew h hnone => exact hnone

/-- Until the next release a key that has an answer keeps it, and nothing is made for it. -/
theorem IsHistory.same_answer (h : IsHistory (later ++ .acquired key (.ok reference) :: earlier))
    (hlater : .released ∉ later) :
    (∀ answer, .acquired key answer ∈ later → answer = .ok reference) ∧
      ∀ outcome, .made key outcome ∉ later := by
  refine ⟨fun answer hanswer => ?_, fun outcome hmade => ?_⟩
  · obtain ⟨front, back, rfl⟩ := List.append_of_mem hanswer
    have hback : .released ∉ back := fun hback => hlater (by simp [hback])
    rw [List.append_assoc, List.cons_append] at h
    exact h.answer_eq (serves_append hback)
  · obtain ⟨front, back, rfl⟩ := List.append_of_mem hmade
    have hback : .released ∉ back := fun hback => hlater (by simp [hback])
    rw [List.append_assoc, List.cons_append] at h
    exact h.of_made.1 reference (serves_append hback)

/-- When a resource was made for a key, nothing is made for it again before a release. -/
theorem IsHistory.made_once {outcome : Except ε (Reference ρ)} {middle : List (Event κ ε ρ)}
    (h : IsHistory (later ++ .made key outcome :: (middle ++ .made key (.ok reference) :: earlier))) :
    .released ∈ middle := by
  by_contra hmiddle
  have hnone := h.of_made.1 reference
  rw [← List.cons_append, ← List.append_assoc] at h
  obtain ⟨-, front, hfront⟩ := h.of_made
  -- The first making was answered before the second one.
  obtain rfl | ⟨rest, last, rfl⟩ := List.eq_nil_or_concat middle
  · cases List.append_inj_right' hfront rfl
  · rw [List.concat_eq_append, ← List.cons_append, ← List.append_assoc] at hfront
    cases List.append_inj_right' hfront rfl
    rw [List.concat_eq_append] at hnone hmiddle
    have hrest : .released ∉ rest := fun hrest => hmiddle (List.mem_append_left _ hrest)
    rw [List.append_assoc] at hnone
    exact hnone (serves_append hrest)

/-- A key whose acquisition failed has no answer, so a resource is to be made again. -/
theorem IsHistory.tried_again {answer : Except ε (Reference ρ)} {e : ε} {middle : List (Event κ ε ρ)}
    (h : IsHistory (later ++ .acquired key answer ::
      (middle ++ .acquired key (.error e) :: earlier)))
    (hmiddle : ∀ reference, .acquired key (.ok reference) ∉ middle) :
    ∃ rest, middle = .made key answer :: rest := by
  have hearlier : IsHistory ((later ++ .acquired key answer :: middle) ++
      .acquired key (.error e) :: earlier) := by
    rwa [List.append_assoc, List.cons_append]
  have hnone : ∀ r, ¬ Serves (middle ++ .acquired key (.error e) :: earlier) key r := by
    intro r hr
    obtain hmem | hr := hr.mem_or
    · exact hmiddle r hmem
    · have hserves := (serves_cons_of_acquiredKey?_eq_none rfl rfl).mp hr
      cases hearlier.answer_eq hserves
  obtain ⟨rest, hrest⟩ := h.exists_made hnone
  cases middle with
  | nil => cases hrest
  | cons event middle => exact ⟨middle, by rw [(List.cons.inj hrest).1]⟩

/-- The answer to a count. -/
theorem IsHistory.counted_eq {n : Nat} (h : IsHistory (later ++ .counted n :: earlier)) :
    n = (acquiredKeys (sinceRelease earlier)).length := by
  cases h.standsIn with
  | alone h =>
    cases h
    rfl

end Histories

end SourceBundle.Cache
