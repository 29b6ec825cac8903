import ContentSchema.Watch.Fingerprint
/-!
# Watchers

A watcher compares snapshots of the fingerprints of its paths with a baseline. A snapshot that
differs becomes pending; it is reported once it has stayed the same for the debounce time, and is the
baseline from then on. So a change that is undone before that is never reported, and none is reported
twice.

Watching is a fold of `poll` over what the polls see: a snapshot, and the time at which it was taken.
-/

namespace ContentSchema

/-- What a watcher remembers between two polls. -/
structure Watcher where
  /-- The snapshot after the last report. -/
  baseline : List Fingerprint
  /-- A snapshot that differs from the baseline, and since when it has been seen. -/
  pending : Option (List Fingerprint × Nat) := none
deriving DecidableEq, Repr

/-- What a poll sees. -/
structure Look where
  /-- The time in milliseconds. -/
  now : Nat
  snapshot : List Fingerprint
deriving DecidableEq, Repr

/-- The paths whose fingerprints differ between two snapshots, in order. -/
def changedPaths (paths : List String) (old new : List Fingerprint) : List String :=
  ((paths.zip (old.zip new)).filter fun entry ↦ entry.2.1 ≠ entry.2.2).map (·.1)

namespace Watcher

/-- One poll: the paths it reports, none if there is nothing to report, and the watcher after it. -/
def poll (paths : List String) (debounce : Nat) (watcher : Watcher) (look : Look) :
    List String × Watcher :=
  match watcher.pending with
  | none =>
    if look.snapshot = watcher.baseline then ([], watcher)
    else ([], { watcher with pending := some (look.snapshot, look.now) })
  | some (candidate, since) =>
    if look.snapshot ≠ candidate then
      ([], { watcher with pending := some (look.snapshot, look.now) })
    else if look.now - since < debounce then ([], watcher)
    else (changedPaths paths watcher.baseline candidate, { baseline := look.snapshot })

end Watcher

end ContentSchema
