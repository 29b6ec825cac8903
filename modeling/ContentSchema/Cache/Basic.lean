import ContentSchema.CompileError
/-!
# The cache

A compiled set is kept until it is invalidated. While it is being compiled the cache is on a
*flight*: callers that come in the meantime join it and receive what its owner publishes.

Each operation here is one atomic step on the cache, so that any schedule of callers is a sequence of
them. An owner takes three: `start` counts its run, `settle` gives the cache its new state and
`publish` hands the result to those who wait. Between the last two another caller may come in, and
`invalidate` may come anywhere; `settle` therefore changes the state only of a cache that is still on
the owner's own flight. Flights are numbered in the order in which they begin, so no two are the same.
-/

namespace ContentSchema

/-- What a cache holds. -/
inductive CacheState (α : Type) where
  | empty
  /-- The flight of this number is under way. -/
  | loading (flight : Nat)
  | ready (set : α)
deriving DecidableEq, Repr

/-- What a caller can see of the state. -/
inductive CacheStatus where
  | empty
  | loading
  | ready
deriving DecidableEq, Repr

/-- What has happened to a cache. -/
structure CacheStats where
  /-- Compilations that were started. -/
  runs : Nat := 0
  /-- Loads that found a set. -/
  hits : Nat := 0
  /-- Loads that joined a flight. -/
  joined : Nat := 0
deriving DecidableEq, Repr

/-- A cache of one compiled set. -/
structure Cache (α : Type) where
  state : CacheState α := .empty
  /-- What each flight has published, by its number. -/
  flights : List (Option (Except CompileError α)) := []
  stats : CacheStats := {}

/-- How a load comes in. -/
inductive CacheEntry (α : Type) where
  /-- There is a set. -/
  | hit (set : α)
  /-- The load waits for what the flight publishes. -/
  | join (flight : Nat)
  /-- The load owns a new flight and has to compile. -/
  | own (flight : Nat)
deriving DecidableEq, Repr

namespace Cache

variable {α : Type}

/-- A load comes in. -/
def enter (cache : Cache α) : CacheEntry α × Cache α :=
  match cache.state with
  | .ready set => (.hit set, { cache with stats.hits := cache.stats.hits + 1 })
  | .loading flight => (.join flight, { cache with stats.joined := cache.stats.joined + 1 })
  | .empty =>
    let flight := cache.flights.length
    (.own flight, { cache with state := .loading flight, flights := cache.flights ++ [none] })

/-- An owner counts its run and starts to compile. -/
def start (cache : Cache α) : Cache α := { cache with stats.runs := cache.stats.runs + 1 }

/-- The state after a flight has come to a result: a set is kept and a failure leaves nothing, but
only if the cache is still on that flight. -/
def settle (cache : Cache α) (flight : Nat) (result : Except CompileError α) : Cache α :=
  match cache.state with
  | .loading current =>
    if current = flight then
      { cache with state := match result with
        | .ok set => .ready set
        | .error _ => .empty }
    else cache
  | _ => cache

/-- Hands a flight's result to those who wait for it; the first result stays. -/
def publish (cache : Cache α) (flight : Nat) (result : Except CompileError α) : Cache α :=
  { cache with flights := cache.flights.modify flight fun published ↦ published.or (some result) }

/-- What a flight has published. -/
def result? (cache : Cache α) (flight : Nat) : Option (Except CompileError α) :=
  cache.flights[flight]?.join

/-- Drops the set and leaves the flight, if there is one. -/
def invalidate (cache : Cache α) : Cache α := { cache with state := .empty }

/-- The set, if there is one. -/
def cached? (cache : Cache α) : Option α :=
  match cache.state with
  | .ready set => some set
  | _ => none

/-- What a caller can see of the state. -/
def status (cache : Cache α) : CacheStatus :=
  match cache.state with
  | .empty => .empty
  | .loading _ => .loading
  | .ready _ => .ready

end Cache

end ContentSchema
