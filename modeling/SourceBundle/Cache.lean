/-!
# Caches

Resources that are costly to make are made on first use and kept by key until all of them are
released.  Making one may fail; a failure leaves the cache as it was.

Resources are shared.  The cache has a reference to each resource that it keeps, and whoever acquires
the resource gets a reference of their own, so a release takes nothing from them.  Making resources
and counting references are effects: a cache acts in any monad that has them.
-/

namespace SourceBundle

/-- The resources that are kept, each under its key. -/
structure Cache (κ α : Type) where
  held : List (κ × α)

namespace Cache

variable {κ α ε : Type} {m : Type → Type} [Monad m]

/-- The cache that keeps nothing. -/
def empty : Cache κ α := ⟨[]⟩

/-- The resource kept under a key. -/
def find? [DecidableEq κ] (cache : Cache κ α) (key : κ) : Option α :=
  (cache.held.find? fun entry => entry.1 = key).map Prod.snd

/-- The resource for a key and the cache that keeps it.  `make` makes the resource and the first
reference to it; it is run only when none is kept.  `share` makes a further reference. -/
def acquire [DecidableEq κ] (share : α → m Unit) (make : m (Except ε α)) (cache : Cache κ α)
    (key : κ) : m (Except ε α × Cache κ α) :=
  match cache.find? key with
  | some resource => do
    share resource
    return (.ok resource, cache)
  | none => do
    match ← make with
    | .ok resource => do
      share resource
      return (.ok resource, ⟨(key, resource) :: cache.held⟩)
    | .error e => return (.error e, cache)

/-- Forgets all resources and gives the references to them up. -/
def releaseAll (giveUp : α → m Unit) (cache : Cache κ α) : m (Cache κ α) := do
  cache.held.forM fun entry => giveUp entry.2
  return empty

/-- The number of resources that are kept. -/
def size (cache : Cache κ α) : Nat := cache.held.length

/-- No resource is kept. -/
def isEmpty (cache : Cache κ α) : Bool := cache.size == 0

end Cache

/-! ## References -/

/-- A reference to a resource, which has an address of its own. -/
structure Reference (ρ : Type) where
  address : Nat
  resource : ρ
  deriving DecidableEq, Repr

namespace Cache

/-- What happens with a cache. -/
inductive Event (κ ε ρ : Type) where
  /-- A resource was to be made for a key. -/
  | made (key : κ) (outcome : Except ε (Reference ρ))
  /-- A resource was asked for. -/
  | acquired (key : κ) (answer : Except ε (Reference ρ))
  | released
  | counted (size : Nat)
  /-- A reference that had been handed out was given up. -/
  | gaveUp (address : Nat)

/-- What is around a cache. -/
structure World (κ σ ε ρ : Type) where
  /-- The state of what makes the resources. -/
  maker : σ
  /-- The number of references to each resource that was made, by its address.  A resource is there
  as long as there are references to it. -/
  references : List Nat
  /-- What has happened, the latest first. -/
  log : List (Event κ ε ρ)

namespace World

variable {κ σ ε ρ : Type}

/-- Makes a resource and the first reference to it. -/
def make (build : κ → σ → Except ε ρ × σ) (key : κ) :
    StateM (World κ σ ε ρ) (Except ε (Reference ρ)) := fun w =>
  match build key w.maker with
  | (.ok resource, maker) =>
    let reference : Reference ρ := ⟨w.references.length, resource⟩
    (.ok reference, ⟨maker, w.references ++ [1], .made key (.ok reference) :: w.log⟩)
  | (.error e, maker) => (.error e, ⟨maker, w.references, .made key (.error e) :: w.log⟩)

/-- Changes the number of references to a resource. -/
def recount (change : Nat → Nat) (address : Nat) (w : World κ σ ε ρ) : World κ σ ε ρ :=
  { w with references := w.references.modify address change }

/-- Makes a further reference to a resource. -/
def share (reference : Reference ρ) : StateM (World κ σ ε ρ) Unit :=
  modify (recount (· + 1) reference.address)

/-- Gives up a reference to a resource. -/
def giveUp (reference : Reference ρ) : StateM (World κ σ ε ρ) Unit :=
  modify (recount (· - 1) reference.address)

/-- Adds to what has happened. -/
def note (event : Event κ ε ρ) (w : World κ σ ε ρ) : World κ σ ε ρ := { w with log := event :: w.log }

/-- What a reference leads to: its resource, if that is still there. -/
def read? (w : World κ σ ε ρ) (reference : Reference ρ) : Option ρ :=
  if 0 < w.references.getD reference.address 0 then some reference.resource else none

end World

/-! ## Caches in use -/

/-- A call of those who use a cache. -/
inductive Call (κ : Type) where
  | acquire (key : κ)
  | releaseAll
  | size
  /-- Gives up a reference that was handed out. -/
  | giveUp (address : Nat)

/-- A cache in use. -/
structure Session (κ σ ε ρ : Type) where
  cache : Cache κ (Reference ρ)
  world : World κ σ ε ρ
  /-- The addresses of the references that were handed out and have not been given up. -/
  handedOut : List Nat

namespace Session

variable {κ σ ε ρ : Type} [DecidableEq κ]

/-- The session before the first call. -/
def start (maker : σ) : Session κ σ ε ρ := ⟨.empty, ⟨maker, [], []⟩, []⟩

/-- The session after a call.  `build` makes the resource for a key, or fails. -/
def step (build : κ → σ → Except ε ρ × σ) (s : Session κ σ ε ρ) : Call κ → Session κ σ ε ρ
  | .acquire key =>
    let ((answer, cache), world) := (s.cache.acquire World.share (World.make build key) key).run s.world
    ⟨cache, world.note (.acquired key answer),
      answer.toOption.toList.map Reference.address ++ s.handedOut⟩
  | .releaseAll =>
    let (cache, world) := (s.cache.releaseAll World.giveUp).run s.world
    ⟨cache, world.note .released, s.handedOut⟩
  | .size => { s with world := s.world.note (.counted s.cache.size) }
  | .giveUp address =>
    if address ∈ s.handedOut then
      { s with
        world := (s.world.recount (· - 1) address).note (.gaveUp address)
        handedOut := s.handedOut.erase address }
    else s

/-- The session after some calls. -/
def run (build : κ → σ → Except ε ρ × σ) (s : Session κ σ ε ρ) (calls : List (Call κ)) :
    Session κ σ ε ρ :=
  calls.foldl (step build) s

/-- The address of the resource with which a key was answered last. -/
def answered? (s : Session κ σ ε ρ) (key : κ) : Option Nat :=
  s.world.log.findSome? fun
    | .acquired k (.ok reference) => if k = key then some reference.address else none
    | _ => none

end Session

end Cache

/-- A cache in use whose resources can be told apart and are nothing else. -/
abbrev CacheSession (κ : Type) := Cache.Session κ Unit Empty Unit

namespace CacheSession

variable {κ : Type} [DecidableEq κ]

/-- Makes a resource for any key. -/
def build (_ : κ) (_ : Unit) : Except Empty Unit × Unit := (.ok (), ())

/-- The session before the first use. -/
def start : CacheSession κ := Cache.Session.start ()

/-- Acquires the resource for a key, and tells whether it is the one with which the key was
answered last. -/
def acquire (s : CacheSession κ) (key : κ) : Option Bool × CacheSession κ :=
  let next := s.step build (.acquire key)
  ((s.answered? key).map fun address => next.answered? key == some address, next)

/-- Releases the resources of the cache. -/
def release (s : CacheSession κ) : CacheSession κ := s.step build .releaseAll

end CacheSession

end SourceBundle
