import Mathlib.Data.List.Perm.Basic
import SourceBundle.Proofs.Cache.Histories
import SourceBundle.Proofs.Cache.References

/-!
# Caches and their histories

A cache keeps what has been acquired since it was released last, and nothing else
(`IsRecorded.find?_iff`).  So each call extends a history by what may happen next
(`IsRecorded.step`), and whatever holds of histories holds of what a cache does.

The history tells all that was made: the state of what makes the resources is the one after these and
no others (`IsBuilt`).  And it tells which references are in use: those that were handed out and have
not been given up (`IsAddressed`).  As they are counted right, a resource is there as long as somebody
was handed it and has not given it up, whether or not the cache still keeps it
(`IsAddressed.read?_eq`).
-/

namespace SourceBundle.Cache

variable {κ σ ε ρ : Type}

/-! ## The cache and its history -/

section Keys

variable [DecidableEq κ] {α : Type} {cache : Cache κ α} {key k : κ} {resource : α}

theorem find?_cons (held : List (κ × α)) :
    (⟨(k, resource) :: held⟩ : Cache κ α).find? key =
      if k = key then some resource else (⟨held⟩ : Cache κ α).find? key := by
  by_cases hkey : k = key
  · rw [if_pos hkey, find?, List.find?_cons_of_pos (by simpa using hkey)]
    rfl
  · rw [if_neg hkey, find?, List.find?_cons_of_neg (by simpa using hkey)]
    rfl

theorem mem_keys_iff :
    key ∈ cache.held.map Prod.fst ↔ ∃ resource, cache.find? key = some resource := by
  simp only [find?, ← Option.isSome_iff_exists, Option.isSome_map, List.find?_isSome, List.mem_map,
    decide_eq_true_eq]

end Keys

namespace Session

variable [DecidableEq κ] {build : κ → σ → Except ε ρ × σ} {s s' : Session κ σ ε ρ} {call : Call κ}

/-- The cache is what its history says. -/
structure IsRecorded (s : Session κ σ ε ρ) : Prop where
  history : IsHistory s.world.log
  nodup_keys : (s.cache.held.map Prod.fst).Nodup
  find?_iff : ∀ key reference, s.cache.find? key = some reference ↔ Serves s.world.log key reference

theorem IsRecorded.not_serves (h : s.IsRecorded) {key : κ} (hnone : s.cache.find? key = none)
    (reference : Reference ρ) : ¬ Serves s.world.log key reference := by
  rw [← h.find?_iff, hnone]
  exact nofun

/-- The keys that are kept are those that were acquired since the last release. -/
theorem IsRecorded.keys_perm (h : s.IsRecorded) :
    (s.cache.held.map Prod.fst).Perm (acquiredKeys (sinceRelease s.world.log)) := by
  refine (List.perm_ext_iff_of_nodup h.nodup_keys (List.nodup_dedup _)).mpr fun key => ?_
  rw [mem_keys_iff]
  exact (exists_congr (h.find?_iff key)).trans mem_acquiredKeys.symm

theorem IsRecorded.size_eq (h : s.IsRecorded) :
    s.cache.size = (acquiredKeys (sinceRelease s.world.log)).length := by
  rw [← h.keys_perm.length_eq, List.length_map]
  rfl

/-- Every call extends the history, and the cache follows it. -/
theorem IsRecorded.step (h : s.IsRecorded) (hstep : Step build s call s') : s'.IsRecorded := by
  cases hstep with
  | @kept key reference hkept =>
    have hserves := (h.find?_iff key reference).mp hkept
    refine ⟨.again h.history hserves, h.nodup_keys, fun k r => (h.find?_iff k r).trans ?_⟩
    exact (serves_again_iff hserves).symm
  | @made key resource maker reference hnone hbuild hreference =>
    have hnot := h.not_serves hnone
    have hfresh : key ∉ s.cache.held.map Prod.fst := by
      rw [mem_keys_iff, hnone]
      exact nofun
    refine ⟨.anew h.history hnot, List.nodup_cons.mpr ⟨hfresh, h.nodup_keys⟩, fun k r => ?_⟩
    refine Iff.trans ?_ serves_acquired_made_iff.symm
    rw [find?_cons]
    by_cases hkey : key = k
    · subst hkey
      simp [hnot]
    · simpa [hkey] using h.find?_iff k r
  | @failed key e maker hnone hbuild =>
    refine ⟨.anew h.history (h.not_serves hnone), h.nodup_keys, fun k r => ?_⟩
    refine (h.find?_iff k r).trans (Iff.trans ?_ serves_acquired_made_iff.symm)
    exact (or_iff_right nofun).symm
  | released hlength hreferences =>
    exact ⟨.released h.history, List.nodup_nil, fun k r => iff_of_false nofun not_serves_released⟩
  | counted =>
    refine ⟨?_, h.nodup_keys, fun k r => (h.find?_iff k r).trans ?_⟩
    · have hcounted := IsHistory.counted h.history
      rwa [← h.size_eq] at hcounted
    · exact (serves_cons_of_acquiredKey?_eq_none rfl rfl).symm
  | gaveUp hheld =>
    refine ⟨.gaveUp h.history, h.nodup_keys, fun k r => (h.find?_iff k r).trans ?_⟩
    exact (serves_cons_of_acquiredKey?_eq_none rfl rfl).symm
  | nothing hnot => exact h

theorem isRecorded_run (build : κ → σ → Except ε ρ × σ) (maker : σ) (calls : List (Call κ)) :
    ((start maker).run build calls).IsRecorded :=
  run_induction maker ⟨.nil, List.nodup_nil, fun _ _ => iff_of_false nofun nofun⟩
    (fun _ _ _ h hstep => h.step hstep) calls

end Session

/-! ## Addresses in a history -/

/-- The address of a resource that was made. -/
def Event.madeAddress? : Event κ ε ρ → Option Nat
  | .made _ (.ok reference) => some reference.address
  | _ => none

/-- The address of a reference that was handed out. -/
def Event.handedOutAddress? : Event κ ε ρ → Option Nat
  | .acquired _ (.ok reference) => some reference.address
  | _ => none

/-- The address of a reference that was given up. -/
def Event.givenUpAddress? : Event κ ε ρ → Option Nat
  | .gaveUp address => some address
  | _ => none

namespace Session

/-- The history of the references. -/
structure IsAddressed (s : Session κ σ ε ρ) : Prop where
  /-- Resources are made at one address after the other. -/
  made_eq : s.world.log.filterMap Event.madeAddress? = (List.range s.world.references.length).reverse
  /-- Whoever is handed a reference has it until it is given up. -/
  handedOut_count : ∀ address, s.handedOut.count address +
    (s.world.log.filterMap Event.givenUpAddress?).count address =
      (s.world.log.filterMap Event.handedOutAddress?).count address

theorem IsAddressed.handedOut_cons_count {s : Session κ σ ε ρ} (h : s.IsAddressed)
    (next address : Nat) : (next :: s.handedOut).count address +
      (s.world.log.filterMap Event.givenUpAddress?).count address =
        (next :: s.world.log.filterMap Event.handedOutAddress?).count address := by
  rw [List.count_cons, List.count_cons, ← h.handedOut_count]
  exact Nat.add_right_comm _ _ _

/-- A resource is there until the last reference that was handed out to it is given up. -/
theorem IsAddressed.read?_eq {s : Session κ σ ε ρ} (h : s.IsAddressed) (hcounted : s.IsCounted)
    {reference : Reference ρ}
    (hmore : (s.world.log.filterMap Event.givenUpAddress?).count reference.address <
      (s.world.log.filterMap Event.handedOutAddress?).count reference.address) :
    s.world.read? reference = some reference.resource := by
  have hcount := h.handedOut_count reference.address
  have hpos : 0 < s.handedOut.count reference.address := by omega
  exact hcounted.read?_eq_some (List.count_pos_iff.mp hpos)

variable [DecidableEq κ] {build : κ → σ → Except ε ρ × σ} {s s' : Session κ σ ε ρ} {call : Call κ}

theorem IsAddressed.step (h : s.IsAddressed) (hstep : Step build s call s') : s'.IsAddressed := by
  cases hstep with
  | @kept key reference hkept =>
    refine ⟨?_, h.handedOut_cons_count reference.address⟩
    exact h.made_eq.trans (by rw [World.note, World.recount, List.length_modify])
  | @made key resource maker reference hnone hbuild hreference =>
    refine ⟨?_, h.handedOut_cons_count reference.address⟩
    change reference.address :: s.world.log.filterMap Event.madeAddress? = _
    rw [List.length_modify, List.length_append, List.length_singleton, List.range_succ,
      List.reverse_append, h.made_eq, hreference]
    rfl
  | failed hnone hbuild => exact ⟨h.made_eq, h.handedOut_count⟩
  | released hlength hreferences => exact ⟨hlength ▸ h.made_eq, h.handedOut_count⟩
  | counted => exact ⟨h.made_eq, h.handedOut_count⟩
  | @gaveUp given hheld =>
    refine ⟨?_, fun address => ?_⟩
    · exact h.made_eq.trans (by rw [World.note, World.recount, List.length_modify])
    · change (s.handedOut.erase given).count address +
        (given :: s.world.log.filterMap Event.givenUpAddress?).count address =
          (s.world.log.filterMap Event.handedOutAddress?).count address
      rw [List.count_erase, List.count_cons, ← h.handedOut_count]
      by_cases hsame : given = address
      · have hpos : 0 < s.handedOut.count address := List.count_pos_iff.mpr (hsame ▸ hheld)
        simp only [beq_iff_eq, hsame, if_pos]
        omega
      · simp [hsame]
  | nothing hnot => exact h

theorem isAddressed_run (build : κ → σ → Except ε ρ × σ) (maker : σ) (calls : List (Call κ)) :
    ((start maker).run build calls).IsAddressed :=
  run_induction maker ⟨rfl, fun _ => rfl⟩ (fun _ _ _ h hstep => h.step hstep) calls

end Session

/-! ## Making resources in a history -/

section Making

variable {build : κ → σ → Except ε ρ × σ} {maker : σ} {log : List (Event κ ε ρ)}
  {event : Event κ ε ρ}

/-- The state of what makes the resources, when what was made is what the history tells. -/
def makerAfter (build : κ → σ → Except ε ρ × σ) (maker : σ) : List (Event κ ε ρ) → σ
  | [] => maker
  | .made key _ :: earlier => (build key (makerAfter build maker earlier)).2
  | _ :: earlier => makerAfter build maker earlier

/-- What came of making a resource is what had to come of it after what was made before. -/
def IsMadeBy (build : κ → σ → Except ε ρ × σ) (maker : σ) (log : List (Event κ ε ρ)) : Prop :=
  ∀ later key outcome earlier, log = later ++ .made key outcome :: earlier →
    outcome.map Reference.resource = (build key (makerAfter build maker earlier)).1

theorem IsMadeBy.cons (h : IsMadeBy build maker log)
    (hevent : ∀ key outcome, event = .made key outcome →
      outcome.map Reference.resource = (build key (makerAfter build maker log)).1) :
    IsMadeBy build maker (event :: log) := by
  intro later key outcome earlier hlog
  cases later with
  | nil =>
    obtain ⟨hmade, rfl⟩ := List.cons.inj hlog
    exact hevent key outcome hmade
  | cons last later => exact h later key outcome earlier (List.cons.inj hlog).2

/-- A session whose resources were all made as the history tells. -/
structure Session.IsBuilt (build : κ → σ → Except ε ρ × σ) (maker : σ) (s : Session κ σ ε ρ) :
    Prop where
  maker_eq : s.world.maker = makerAfter build maker s.world.log
  made : IsMadeBy build maker s.world.log

end Making

namespace Session

variable [DecidableEq κ] {build : κ → σ → Except ε ρ × σ} {s s' : Session κ σ ε ρ} {call : Call κ}

theorem IsBuilt.step {maker : σ} (h : s.IsBuilt build maker) (hstep : Step build s call s') :
    s'.IsBuilt build maker := by
  cases hstep with
  | kept hkept => exact ⟨h.maker_eq, h.made.cons nofun⟩
  | @made key resource next reference hnone hbuild hreference =>
    rw [h.maker_eq] at hbuild
    refine ⟨(congrArg Prod.snd hbuild).symm, (h.made.cons fun k outcome hmade => ?_).cons nofun⟩
    cases hmade
    rw [hbuild, hreference]
    rfl
  | @failed key e next hnone hbuild =>
    rw [h.maker_eq] at hbuild
    refine ⟨(congrArg Prod.snd hbuild).symm, (h.made.cons fun k outcome hmade => ?_).cons nofun⟩
    cases hmade
    rw [hbuild]
    rfl
  | released hlength hreferences => exact ⟨h.maker_eq, h.made.cons nofun⟩
  | counted => exact ⟨h.maker_eq, h.made.cons nofun⟩
  | gaveUp hheld => exact ⟨h.maker_eq, h.made.cons nofun⟩
  | nothing hnot => exact h

theorem isBuilt_run (build : κ → σ → Except ε ρ × σ) (maker : σ) (calls : List (Call κ)) :
    ((start maker).run build calls).IsBuilt build maker :=
  run_induction maker ⟨rfl, fun _ _ _ _ hlog => nomatch List.append_eq_nil_iff.mp hlog.symm⟩
    (fun _ _ _ h hstep => h.step hstep) calls

end Session

/-! ## Calls in a history -/

/-- The call of the cache that was answered. -/
def Event.call? : Event κ ε ρ → Option (Call κ)
  | .acquired key _ => some (.acquire key)
  | .released => some .releaseAll
  | .counted _ => some .size
  | .made _ _ => none
  | .gaveUp _ => none

/-- The call is one of the cache. -/
def Call.isOfCache : Call κ → Bool
  | .giveUp _ => false
  | _ => true

namespace Session

variable [DecidableEq κ] {build : κ → σ → Except ε ρ × σ} {s s' : Session κ σ ε ρ} {call : Call κ}

/-- A call adds itself to the history. -/
theorem Step.calls_eq (hstep : Step build s call s') :
    (s'.world.log.filterMap Event.call?).reverse =
      (s.world.log.filterMap Event.call?).reverse ++ [call].filter Call.isOfCache := by
  cases hstep with
  | gaveUp hheld => exact (List.append_nil _).symm
  | nothing hnot => exact (List.append_nil _).symm
  | _ => exact List.reverse_cons

theorem calls_eq_run (build : κ → σ → Except ε ρ × σ) (s : Session κ σ ε ρ) (calls : List (Call κ)) :
    ((s.run build calls).world.log.filterMap Event.call?).reverse =
      (s.world.log.filterMap Event.call?).reverse ++ calls.filter Call.isOfCache := by
  induction calls generalizing s with
  | nil => exact (List.append_nil _).symm
  | cons call calls ih =>
    have hcall := (step_spec build s call).calls_eq
    calc (((s.step build call).run build calls).world.log.filterMap Event.call?).reverse
        = ((s.step build call).world.log.filterMap Event.call?).reverse ++
            calls.filter Call.isOfCache := ih _
      _ = (s.world.log.filterMap Event.call?).reverse ++ (call :: calls).filter Call.isOfCache := by
        rw [hcall, List.append_assoc, ← List.filter_append, List.singleton_append]

/-! ## What callers rely on -/

/-- An acquisition that fails changes nothing but the state of what makes the resources. -/
theorem failed_eq {key : κ} {e : ε}
    (h : (s.step build (.acquire key)).world.log.head? = some (.acquired key (.error e))) :
    (s.step build (.acquire key)).cache = s.cache ∧
      (s.step build (.acquire key)).world.references = s.world.references ∧
      (s.step build (.acquire key)).handedOut = s.handedOut := by
  have hstep := step_spec build s (.acquire key)
  generalize s.step build (.acquire key) = s' at h hstep
  cases hstep with
  | kept hkept => cases h
  | made hnone hbuild hreference => cases h
  | failed hnone hbuild => exact ⟨rfl, rfl, rfl⟩

/-- After some calls a session is as its history tells, and its history is one on which the callers
can rely. -/
structure AgreesWithHistory (build : κ → σ → Except ε ρ × σ) (maker : σ) (calls : List (Call κ))
    (s : Session κ σ ε ρ) : Prop where
  /-- The history has every call of the cache, and no others. -/
  calls_eq : (s.world.log.filterMap Event.call?).reverse = calls.filter Call.isOfCache
  /-- The keys that are kept are those that were acquired since the last release. -/
  keys_perm : (s.cache.held.map Prod.fst).Perm (acquiredKeys (sinceRelease s.world.log))
  /-- What is kept for a key is that with which it was answered since the last release. -/
  find?_iff : ∀ key reference, s.cache.find? key = some reference ↔ Serves s.world.log key reference
  size_eq : s.cache.size = (acquiredKeys (sinceRelease s.world.log)).length
  /-- A count is the number of keys that were acquired since the last release before it. -/
  counted_eq : ∀ {later n earlier}, s.world.log = later ++ .counted n :: earlier →
    n = (acquiredKeys (sinceRelease earlier)).length
  /-- Resources were made when the history tells so, and at no other time. -/
  built : s.IsBuilt build maker
  /-- What was not acquired since the last release is answered by what comes of making it. -/
  made_first : ∀ {later key answer earlier}, s.world.log = later ++ .acquired key answer :: earlier →
    (∀ reference, ¬ Serves earlier key reference) → ∃ rest, earlier = .made key answer :: rest
  /-- When a resource was made for a key, none is to be made again before a release. -/
  made_once : ∀ {later key outcome middle reference earlier},
    s.world.log = later ++ .made key outcome :: (middle ++ .made key (.ok reference) :: earlier) →
      .released ∈ middle
  /-- Until the next release a key is always answered in the same way, without making anything. -/
  same_answer : ∀ {later key reference earlier},
    s.world.log = later ++ .acquired key (.ok reference) :: earlier → .released ∉ later →
      (∀ answer, .acquired key answer ∈ later → answer = .ok reference) ∧
        ∀ outcome, .made key outcome ∉ later
  /-- After a failure it is tried again to make a resource. -/
  tried_again : ∀ {later key answer middle e earlier},
    s.world.log = later ++ .acquired key answer :: (middle ++ .acquired key (.error e) :: earlier) →
      (∀ reference, .acquired key (.ok reference) ∉ middle) →
        ∃ rest, middle = .made key answer :: rest
  /-- An acquisition that fails leaves the cache and all references as they were. -/
  failed_eq : ∀ {key e},
    (s.step build (.acquire key)).world.log.head? = some (.acquired key (.error e)) →
    (s.step build (.acquire key)).cache = s.cache ∧
      (s.step build (.acquire key)).world.references = s.world.references ∧
      (s.step build (.acquire key)).handedOut = s.handedOut
  /-- Every resource has an address of its own. -/
  made_nodup : (s.world.log.filterMap Event.madeAddress?).Nodup
  /-- Whoever was handed a resource finds it, until the last who was handed it gives it up. -/
  read?_eq : ∀ {key reference}, .acquired key (.ok reference) ∈ s.world.log →
    (s.world.log.filterMap Event.givenUpAddress?).count reference.address <
      (s.world.log.filterMap Event.handedOutAddress?).count reference.address →
    s.world.read? reference = some reference.resource

/-- Whatever the calls are and whenever making a resource fails. -/
theorem agreesWithHistory_run (build : κ → σ → Except ε ρ × σ) (maker : σ) (calls : List (Call κ)) :
    ((start maker).run build calls).AgreesWithHistory build maker calls := by
  have hrecorded := isRecorded_run build maker calls
  have haddressed := isAddressed_run build maker calls
  have hcalls := calls_eq_run build (start maker) calls
  have hcounted := isCounted_run build maker calls
  have hbuilt := isBuilt_run build maker calls
  generalize (start maker).run build calls = s at hrecorded haddressed hcalls hcounted hbuilt ⊢
  have hhistory : ∀ {log}, s.world.log = log → IsHistory log := fun hlog => hlog ▸ hrecorded.history
  exact
    { calls_eq := hcalls
      keys_perm := hrecorded.keys_perm
      find?_iff := hrecorded.find?_iff
      size_eq := hrecorded.size_eq
      counted_eq := fun hlog => (hhistory hlog).counted_eq
      built := hbuilt
      made_first := fun hlog hnone => (hhistory hlog).exists_made hnone
      made_once := fun hlog => (hhistory hlog).made_once
      same_answer := fun hlog hlater => (hhistory hlog).same_answer hlater
      tried_again := fun hlog hmiddle => (hhistory hlog).tried_again hmiddle
      failed_eq := failed_eq
      made_nodup := haddressed.made_eq ▸ List.nodup_reverse.mpr List.nodup_range
      read?_eq := fun _ hmore => haddressed.read?_eq hcounted hmore }

-- The first attempt fails.  The resource made for `true` outlives the release, and another follows.
example :
    let build : Bool → Nat → Except Unit Nat × Nat := fun _ n =>
      if n = 0 then (.error (), 1) else (.ok n, n + 1)
    let s := (start 0).run build
      [.acquire true, .acquire true, .acquire true, .acquire false, .releaseAll, .acquire true,
        .giveUp 0, .size]
    s.cache.held = [(true, ⟨2, 3⟩)] ∧ s.world.references = [1, 1, 2] ∧
      s.world.read? ⟨0, 1⟩ = some 1 := by
  decide

end Session

end SourceBundle.Cache
