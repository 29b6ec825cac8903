import ContentSchema.Cache.Load
import ContentSchema.Watch.Watcher
/-!
# Engines

An engine serves the compiled set of one project: it has the cache, and at most one watcher. A change
that the watcher reports drops the set and compiles it anew. What is compiled, and how, is supplied to
each operation.
-/

namespace ContentSchema

/-- A cache with a watcher, if one is running. -/
structure Engine (α : Type) where
  cache : Cache α := {}
  watcher : Option Watcher := none

namespace Engine

variable {α : Type} {m : Type → Type} [Monad m]

/-- The compiled set, which is compiled if it has to be. -/
def load (compile : m (Except CompileError α)) (engine : Engine α) :
    m (Except CompileError α × Engine α) := do
  let (result, cache) ← engine.cache.load compile
  return (result, { engine with cache })

/-- Drops the compiled set. -/
def clear (engine : Engine α) : Engine α := { engine with cache := engine.cache.invalidate }

/-- Starts to watch from a snapshot, unless a watcher is running; tells whether it did. -/
def watch (snapshot : List Fingerprint) (engine : Engine α) : Bool × Engine α :=
  if engine.watcher.isSome then (false, engine)
  else (true, { engine with watcher := some { baseline := snapshot } })

/-- Stops to watch; tells whether a watcher was running. -/
def stopWatching (engine : Engine α) : Bool × Engine α :=
  (engine.watcher.isSome, { engine with watcher := none })

/-- One poll of the watcher: if it reports changes, the set is dropped and compiled anew, and the
outcome of that is given. -/
def poll (paths : List String) (debounce : Nat) (compile : m (Except CompileError α))
    (engine : Engine α) (look : Look) : m (Option (Except CompileError α) × Engine α) := do
  match engine.watcher with
  | none => return (none, engine)
  | some watcher =>
    let (changed, watcher) := watcher.poll paths debounce look
    let engine := { engine with watcher := some watcher }
    if changed.isEmpty then return (none, engine)
    else
      let (result, engine) ← engine.clear.load compile
      return (some result, engine)

end Engine

end ContentSchema
