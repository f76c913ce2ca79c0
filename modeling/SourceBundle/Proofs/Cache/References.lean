import Mathlib.Data.List.Count
import SourceBundle.Cache

/-!
# References to cached resources

A call does one of a few things to a session (`Step`), and an acquisition one of three: it hands out
what is kept, or makes a resource, or fails to.  What holds of all sessions is proved for each of
these.

One such property is that references are counted right (`IsCounted`): to each resource there are as
many as were handed out and have not been given up, and one more when the cache keeps the resource.
A release takes the references of the cache away and no others.  So whoever holds a reference finds
the resource (`IsCounted.read?_eq_some`), however often the cache has been released since.
-/

namespace SourceBundle.Cache

variable {κ σ ε ρ : Type}

/-- The addresses of the resources that a cache keeps. -/
def addresses (cache : Cache κ (Reference ρ)) : List Nat :=
  cache.held.map fun entry => entry.2.address

/-! ## Effects -/

namespace World

variable {build : κ → σ → Except ε ρ × σ} {key : κ} {maker : σ} {w : World κ σ ε ρ}

theorem run_make_of_ok {resource : ρ} (h : build key w.maker = (.ok resource, maker)) :
    (make build key).run w =
      (.ok ⟨w.references.length, resource⟩, ⟨maker, w.references ++ [1],
        .made key (.ok ⟨w.references.length, resource⟩) :: w.log⟩) := by
  rw [StateT.run, make, h]

theorem run_make_of_error {e : ε} (h : build key w.maker = (.error e, maker)) :
    (make build key).run w =
      (.error e, ⟨maker, w.references, .made key (.error e) :: w.log⟩) := by
  rw [StateT.run, make, h]

/-- Recounting changes the number of references to one resource. -/
theorem getD_modify {change : Nat → Nat} {references : List Nat} {i : Nat}
    (h : change 0 = 0 ∨ i < references.length) (address : Nat) :
    (references.modify i change).getD address 0 =
      if i = address then change (references.getD address 0) else references.getD address 0 := by
  simp only [List.getD_eq_getElem?_getD, List.getElem?_modify]
  cases haddress : references[address]? with
  | some n => split <;> rfl
  | none =>
    have hlength := List.getElem?_eq_none_iff.mp haddress
    split
    · have hzero : change 0 = 0 := h.resolve_right (by omega)
      exact hzero.symm
    · rfl

/-- The resource that was made last has the next address. -/
theorem getD_concat (references : List Nat) (n address : Nat) :
    (references ++ [n]).getD address 0 =
      if references.length = address then n else references.getD address 0 := by
  simp only [List.getD_eq_getElem?_getD]
  rcases Nat.lt_trichotomy address references.length with hlt | rfl | hgt
  · rw [List.getElem?_append_left hlt, if_neg (by omega)]
  · simp
  · rw [if_neg (by omega), List.getElem?_eq_none (by simp; omega), List.getElem?_eq_none (by omega)]

/-- References are given up one after the other. -/
theorem run_forM_giveUp (held : List (κ × Reference ρ)) (w : World κ σ ε ρ) :
    ∃ references, (held.forM fun entry => giveUp entry.2 : StateM (World κ σ ε ρ) PUnit).run w =
        (⟨⟩, { w with references := references }) ∧
      references.length = w.references.length ∧
      ∀ address, references.getD address 0 = w.references.getD address 0 -
        (held.map fun entry => entry.2.address).count address := by
  induction held generalizing w with
  | nil => exact ⟨w.references, rfl, rfl, fun address => rfl⟩
  | cons entry held ih =>
    obtain ⟨references, hrun, hlength, hcount⟩ := ih (w.recount (· - 1) entry.2.address)
    refine ⟨references, hrun, hlength.trans (List.length_modify _ _ _), fun address => ?_⟩
    rw [hcount, recount, getD_modify (.inl rfl), List.map_cons, List.count_cons]
    by_cases hsame : entry.2.address = address
    · simp only [hsame, if_pos, BEq.rfl]
      omega
    · simp [hsame]

end World

/-! ## Counted references -/

namespace Session

variable {s : Session κ σ ε ρ} {address : Nat}

/-- To every resource there are the references that were handed out, and that of the cache. -/
def IsCounted (s : Session κ σ ε ρ) : Prop :=
  ∀ address, s.world.references.getD address 0 =
    s.handedOut.count address + s.cache.addresses.count address

/-- There are references to whatever is kept or has been handed out. -/
theorem IsCounted.pos (h : s.IsCounted)
    (hmem : address ∈ s.handedOut ∨ address ∈ s.cache.addresses) :
    0 < s.world.references.getD address 0 := by
  rw [h address]
  rcases hmem with hmem | hmem
  · have := List.count_pos_iff.mpr hmem
    omega
  · have := List.count_pos_iff.mpr hmem
    omega

theorem IsCounted.lt_length (h : s.IsCounted)
    (hmem : address ∈ s.handedOut ∨ address ∈ s.cache.addresses) :
    address < s.world.references.length := by
  by_contra hout
  have hpos := h.pos hmem
  rw [List.getD_eq_getElem?_getD, List.getElem?_eq_none (Nat.not_lt.mp hout)] at hpos
  exact Nat.lt_irrefl 0 hpos

/-- Whoever holds a reference finds the resource. -/
theorem IsCounted.read?_eq_some (h : s.IsCounted) {reference : Reference ρ}
    (hmem : reference.address ∈ s.handedOut) : s.world.read? reference = some reference.resource :=
  if_pos (h.pos (.inl hmem))

end Session

/-! ## What a call does -/

namespace Session

variable [DecidableEq κ] {build : κ → σ → Except ε ρ × σ} {s s' : Session κ σ ε ρ} {call : Call κ}

/-- What a call does to a session. -/
inductive Step (build : κ → σ → Except ε ρ × σ) (s : Session κ σ ε ρ) :
    Call κ → Session κ σ ε ρ → Prop
  /-- What is kept for the key is handed out. -/
  | kept {key : κ} {reference : Reference ρ} (hkept : s.cache.find? key = some reference) :
      Step build s (.acquire key)
        ⟨s.cache, (s.world.recount (· + 1) reference.address).note (.acquired key (.ok reference)),
          reference.address :: s.handedOut⟩
  /-- A resource is made, kept and handed out. -/
  | made {key : κ} {resource : ρ} {maker : σ} {reference : Reference ρ}
      (hnone : s.cache.find? key = none)
      (hbuild : build key s.world.maker = (.ok resource, maker))
      (hreference : reference = ⟨s.world.references.length, resource⟩) :
      Step build s (.acquire key)
        ⟨⟨(key, reference) :: s.cache.held⟩,
          ⟨maker, (s.world.references ++ [1]).modify reference.address (· + 1),
            .acquired key (.ok reference) :: .made key (.ok reference) :: s.world.log⟩,
          reference.address :: s.handedOut⟩
  /-- No resource could be made. -/
  | failed {key : κ} {e : ε} {maker : σ} (hnone : s.cache.find? key = none)
      (hbuild : build key s.world.maker = (.error e, maker)) :
      Step build s (.acquire key)
        ⟨s.cache, ⟨maker, s.world.references,
          .acquired key (.error e) :: .made key (.error e) :: s.world.log⟩, s.handedOut⟩
  /-- Each resource that is kept loses the reference of the cache. -/
  | released {references : List Nat} (hlength : references.length = s.world.references.length)
      (hreferences : ∀ address, references.getD address 0 =
        s.world.references.getD address 0 - s.cache.addresses.count address) :
      Step build s .releaseAll
        ⟨.empty, ⟨s.world.maker, references, .released :: s.world.log⟩, s.handedOut⟩
  | counted : Step build s .size { s with world := s.world.note (.counted s.cache.size) }
  /-- A reference that was handed out is given up. -/
  | gaveUp {address : Nat} (hheld : address ∈ s.handedOut) :
      Step build s (.giveUp address)
        { s with
          world := (s.world.recount (· - 1) address).note (.gaveUp address)
          handedOut := s.handedOut.erase address }
  /-- There is no such reference to give up. -/
  | nothing {address : Nat} (hnot : address ∉ s.handedOut) : Step build s (.giveUp address) s

theorem step_spec (build : κ → σ → Except ε ρ × σ) (s : Session κ σ ε ρ) (call : Call κ) :
    Step build s call (s.step build call) := by
  cases call with
  | acquire key =>
    cases hkept : s.cache.find? key with
    | some reference =>
      rw [step, acquire, hkept]
      exact .kept hkept
    | none =>
      cases hbuild : build key s.world.maker with
      | mk outcome maker =>
        cases outcome with
        | ok resource =>
          have hmake := World.run_make_of_ok hbuild
          rw [step, acquire, hkept]
          simp only [StateT.run_bind, hmake]
          exact .made hkept hbuild rfl
        | error e =>
          have hmake := World.run_make_of_error hbuild
          rw [step, acquire, hkept]
          simp only [StateT.run_bind, hmake]
          exact .failed hkept hbuild
  | releaseAll =>
    obtain ⟨references, hrun, hlength, hcount⟩ := World.run_forM_giveUp s.cache.held s.world
    rw [step, releaseAll]
    simp only [StateT.run_bind, hrun]
    exact .released hlength hcount
  | size => exact .counted
  | giveUp address =>
    by_cases hheld : address ∈ s.handedOut
    · rw [step, if_pos hheld]
      exact .gaveUp hheld
    · rw [step, if_neg hheld]
      exact .nothing hheld

/-- What holds at the start and is kept by every call holds after any calls. -/
theorem run_induction {P : Session κ σ ε ρ → Prop} (maker : σ) (hstart : P (start maker))
    (hstep : ∀ s call s', P s → Step build s call s' → P s') (calls : List (Call κ)) :
    P ((start maker).run build calls) := by
  have hrun : ∀ s, P s → P (s.run build calls) := by
    induction calls with
    | nil => exact fun s hs => hs
    | cons call calls ih => exact fun s hs => ih _ (hstep s call _ hs (step_spec build s call))
  exact hrun _ hstart

/-! ## Counting references -/

theorem address_mem_of_find? {key : κ} {reference : Reference ρ}
    (h : s.cache.find? key = some reference) : reference.address ∈ s.cache.addresses := by
  obtain ⟨entry, hentry, rfl⟩ := Option.map_eq_some_iff.mp h
  exact List.mem_map_of_mem (List.mem_of_find?_eq_some hentry)

/-- Every call counts the references that it makes and gives up. -/
theorem IsCounted.step (h : s.IsCounted) (hstep : Step build s call s') : s'.IsCounted := by
  intro address
  have haddress := h address
  cases hstep with
  | @kept key reference hkept =>
    have hlength := h.lt_length (.inr (address_mem_of_find? hkept))
    change (s.world.references.modify reference.address (· + 1)).getD address 0 =
      (reference.address :: s.handedOut).count address + s.cache.addresses.count address
    rw [World.getD_modify (.inr hlength), List.count_cons, haddress]
    by_cases hsame : reference.address = address
    · rw [if_pos hsame, if_pos (beq_iff_eq.mpr hsame)]
      omega
    · rw [if_neg hsame, if_neg (by simpa using hsame)]
      rfl
  | @made key resource maker reference hnone hbuild hreference =>
    have hnext : reference.address = s.world.references.length := by rw [hreference]
    have hlength : reference.address < (s.world.references ++ [1]).length := by simp [hnext]
    change ((s.world.references ++ [1]).modify reference.address (· + 1)).getD address 0 =
      (reference.address :: s.handedOut).count address +
        (reference.address :: s.cache.addresses).count address
    rw [World.getD_modify (.inr hlength), World.getD_concat, List.count_cons, List.count_cons, hnext]
    by_cases hsame : s.world.references.length = address
    · -- Nobody had a reference to an address that was not in use.
      have hfree : s.world.references.getD address 0 = 0 := by
        rw [List.getD_eq_getElem?_getD, List.getElem?_eq_none (Nat.le_of_eq hsame)]
        rfl
      rw [if_pos hsame, if_pos hsame, if_pos (beq_iff_eq.mpr hsame)]
      omega
    · rw [if_neg hsame, if_neg hsame, if_neg (by simpa using hsame)]
      exact haddress
  | failed hnone hbuild => exact haddress
  | released hlength hreferences =>
    have hempty : (empty : Cache κ (Reference ρ)).addresses = [] := rfl
    rw [hreferences, haddress, hempty, List.count_nil]
    exact Nat.add_sub_cancel _ _
  | counted => exact haddress
  | @gaveUp given hheld =>
    change (s.world.references.modify given (· - 1)).getD address 0 =
      (s.handedOut.erase given).count address + s.cache.addresses.count address
    rw [World.getD_modify (.inl rfl), List.count_erase, haddress]
    by_cases hsame : given = address
    · have hpos : 0 < s.handedOut.count address := List.count_pos_iff.mpr (hsame ▸ hheld)
      rw [if_pos hsame, if_pos (beq_iff_eq.mpr hsame)]
      omega
    · rw [if_neg hsame, if_neg (by simpa using hsame)]
      rfl
  | nothing hnot => exact haddress

theorem isCounted_run (build : κ → σ → Except ε ρ × σ) (maker : σ) (calls : List (Call κ)) :
    ((start maker).run build calls).IsCounted :=
  run_induction maker (fun _ => rfl) (fun _ _ _ h hstep => h.step hstep) calls

end Session

end SourceBundle.Cache
