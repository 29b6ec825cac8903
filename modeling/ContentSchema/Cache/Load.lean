import ContentSchema.Cache.Basic
/-!
# Loads

A load goes through the cache in phases, and any number of loads may be under way at once. `Loads` is
a cache together with the phase of every load that has been made; `Loads.step?` is one atomic step of
one of them, or an invalidation. A schedule is a list of steps, and what can happen to a cache that is
shared by many callers is what some schedule from the empty one leads to.

A run may die without a result. Then its owner gets nothing back, and those who joined its flight
receive the error `aborted`.

`Cache.load` is a load that nothing comes between: it takes the same steps one after the other.
-/

namespace ContentSchema

/-- How a compilation ended. -/
inductive RunOutcome (α : Type) where
  | finished (result : Except CompileError α)
  | died

/-- What the callers of a flight receive when its run has ended. -/
def RunOutcome.published {α : Type} : RunOutcome α → Except CompileError α
  | .finished result => result
  | .died => .error .aborted

/-- How far a load has come. -/
inductive LoadPhase (α : Type) where
  /-- It owns a flight and is about to compile. -/
  | starting (flight : Nat)
  /-- It compiles. -/
  | running (flight : Nat)
  /-- Its run has ended and the cache is settled; the result is not yet published. -/
  | settled (flight : Nat) (outcome : RunOutcome α)
  /-- It waits for the result of a flight. -/
  | waiting (flight : Nat)
  /-- It is over. -/
  | done (outcome : RunOutcome α)

/-- A cache and the loads that have been made, each with its phase; loads are numbered in the order
in which they came in. -/
structure Loads (α : Type) where
  cache : Cache α := {}
  phases : List (LoadPhase α) := []

/-- An atomic step; those of a load name it by its number. -/
inductive LoadStep (α : Type) where
  /-- A new load comes in. -/
  | enter
  /-- An owner starts to compile. -/
  | start (load : Nat)
  /-- The run of an owner ends, and the cache is settled. -/
  | finish (load : Nat) (outcome : RunOutcome α)
  /-- An owner publishes its result and is done. -/
  | publish (load : Nat)
  /-- A waiting load receives the result of its flight. To wait is to lock the slot of the flight, to
  look, and to sleep until there is a notification if there is no result. All of this is one step, which
  cannot be taken before the result is there: the result is put and the sleepers are notified under the
  lock that a waiting load holds when it looks, so none goes to sleep past its notification, and what
  has woken up looks again. -/
  | receive (load : Nat)
  /-- The set is dropped. -/
  | invalidate

namespace Loads

variable {α : Type}

/-- The first phase of a load that came in. -/
def firstPhase : CacheEntry α → LoadPhase α
  | .hit set => .done (.finished (.ok set))
  | .join flight => .waiting flight
  | .own flight => .starting flight

/-- Moves a load to a phase. -/
def move (loads : Loads α) (load : Nat) (phase : LoadPhase α) : Loads α :=
  { loads with phases := loads.phases.set load phase }

/-- One step, if the load it names is in a phase that allows it. -/
def step? (loads : Loads α) : LoadStep α → Option (Loads α)
  | .enter =>
    let (entry, cache) := loads.cache.enter
    some ⟨cache, loads.phases ++ [firstPhase entry]⟩
  | .start load =>
    match loads.phases[load]? with
    | some (.starting flight) =>
      some ({ loads with cache := loads.cache.start }.move load (.running flight))
    | _ => none
  | .finish load outcome =>
    match loads.phases[load]? with
    | some (.running flight) =>
      some ({ loads with cache := loads.cache.settle flight outcome.published }.move load
        (.settled flight outcome))
    | _ => none
  | .publish load =>
    match loads.phases[load]? with
    | some (.settled flight outcome) =>
      some ({ loads with cache := loads.cache.publish flight outcome.published }.move load
        (.done outcome))
    | _ => none
  | .receive load =>
    match loads.phases[load]? with
    | some (.waiting flight) =>
      (loads.cache.result? flight).map fun result ↦ loads.move load (.done (.finished result))
    | _ => none
  | .invalidate => some { loads with cache := loads.cache.invalidate }

/-- The end of a schedule, if every step of it can be taken. -/
def run? (loads : Loads α) (schedule : List (LoadStep α)) : Option (Loads α) :=
  schedule.foldlM step? loads

end Loads

namespace Cache

variable {α : Type} {m : Type → Type} [Monad m]

/-- A load that nothing comes between. If it joins a flight, the result must be there already; a
flight that has published nothing never will. -/
def load (compile : m (Except CompileError α)) (cache : Cache α) :
    m (Except CompileError α × Cache α) :=
  match cache.enter with
  | (.hit set, cache) => pure (.ok set, cache)
  | (.join flight, cache) => pure ((cache.result? flight).getD (.error .aborted), cache)
  | (.own flight, cache) => do
    let result ← compile
    return (result, (cache.start.settle flight result).publish flight result)

end Cache

end ContentSchema
