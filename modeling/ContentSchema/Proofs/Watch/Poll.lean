import ContentSchema.Watch.Watcher
/-!
# One look of a watcher

`Watcher.Poll` says what a look can do: it finds things as they are expected, or finds something new
that has to stay for a while, or finds that something new has stayed. `poll_spec` is the only proof
that opens `Watcher.poll`; what is said of sequences of looks goes through its cases.

Each case holds its own condition and the whole watcher afterwards. What the sequences rest on is
read off the cases here: to see what is expected changes nothing (`Poll.of_expects`), what is
pending and seen again goes on waiting or is expected from then on (`Poll.of_pending`), and what is
pending afterwards was so before or has just been seen (`Poll.pending_inv`).
-/

namespace ContentSchema

/-- Snapshots of the same paths differ only if some path has changed. -/
theorem eq_of_changedPaths_eq_nil {paths : List String} {old new : List Fingerprint}
    (h : changedPaths paths old new = []) (hold : old.length = paths.length)
    (hnew : new.length = paths.length) : old = new := by
  have hequal : ∀ entry ∈ paths.zip (old.zip new), entry.2.1 = entry.2.2 := by
    intro entry hentry
    rw [changedPaths, List.map_eq_nil_iff, List.filter_eq_nil_iff] at h
    simpa using h entry hentry
  refine List.ext_getElem (hold.trans hnew.symm) fun index hfirst hsecond ↦ ?_
  have hzip : index < (paths.zip (old.zip new)).length := by
    simp only [List.length_zip]
    omega
  have hentry := hequal _ (List.getElem_mem hzip)
  simpa using hentry

namespace Watcher

variable {paths : List String} {debounce : Nat} {watcher next : Watcher} {look : Look}
  {changed : List String}

/-- The watcher expects a snapshot, and nothing else is pending. -/
structure Expects (watcher : Watcher) (snapshot : List Fingerprint) : Prop where
  baseline : watcher.baseline = snapshot
  pending : watcher.pending = none

/-- What a look does to a watcher, and what it reports. -/
inductive Poll (paths : List String) (debounce : Nat) (watcher : Watcher) (look : Look) :
    List String → Watcher → Prop where
  /-- All is as after the last report. -/
  | quiet (hpending : watcher.pending = none) (hlook : look.snapshot = watcher.baseline) :
    Poll paths debounce watcher look [] watcher
  /-- What is pending has stayed, but not long enough. -/
  | waits {since : Nat} (hpending : watcher.pending = some (look.snapshot, since))
    (hlook : look.now - since < debounce) : Poll paths debounce watcher look [] watcher
  /-- Something is there that was not pending, and becomes so. -/
  | turns (hnew : ∀ since, watcher.pending ≠ some (look.snapshot, since))
    (hbaseline : watcher.pending = none → look.snapshot ≠ watcher.baseline) :
    Poll paths debounce watcher look [] { watcher with pending := some (look.snapshot, look.now) }
  /-- What is pending has stayed long enough. -/
  | reports {since : Nat} (hpending : watcher.pending = some (look.snapshot, since))
    (hlook : debounce ≤ look.now - since) :
    Poll paths debounce watcher look (changedPaths paths watcher.baseline look.snapshot)
      { baseline := look.snapshot }

theorem poll_spec (h : watcher.poll paths debounce look = (changed, next)) :
    Poll paths debounce watcher look changed next := by
  unfold poll at h
  cases hpending : watcher.pending with
  | none =>
    rw [hpending] at h
    dsimp only at h
    split at h
    next hlook =>
      obtain ⟨rfl, rfl⟩ := Prod.mk.inj h
      exact .quiet hpending hlook
    next hlook =>
      obtain ⟨rfl, rfl⟩ := Prod.mk.inj h
      exact .turns (by simp [hpending]) fun _ ↦ hlook
  | some entry =>
    obtain ⟨candidate, since⟩ := entry
    rw [hpending] at h
    dsimp only at h
    split at h
    next hlook =>
      obtain ⟨rfl, rfl⟩ := Prod.mk.inj h
      -- what is pending is not what is seen, since whenever it may be so
      refine .turns (fun other hother ↦ hlook ?_) (by simp [hpending])
      rw [hpending] at hother
      exact (Prod.mk.inj (Option.some.inj hother)).1.symm
    next hlook =>
      obtain rfl : look.snapshot = candidate := Decidable.not_not.1 hlook
      split at h
      next hearly =>
        obtain ⟨rfl, rfl⟩ := Prod.mk.inj h
        exact .waits hpending hearly
      next hlate =>
        obtain ⟨rfl, rfl⟩ := Prod.mk.inj h
        exact .reports hpending (Nat.le_of_not_lt hlate)

/-- A watcher that expects what it sees stays as it is. -/
theorem Poll.of_expects (h : Poll paths debounce watcher look changed next)
    (hexpects : watcher.Expects look.snapshot) : next = watcher := by
  cases h with
  | quiet | waits => rfl
  | turns _ hbaseline => exact absurd hexpects.baseline.symm (hbaseline hexpects.pending)
  | reports hsome => cases hexpects.pending.symm.trans hsome

/-- What is pending and seen again goes on waiting or is expected from now on. -/
theorem Poll.of_pending {since : Nat} (h : Poll paths debounce watcher look changed next)
    (hpending : watcher.pending = some (look.snapshot, since)) :
    next = watcher ∧ look.now - since < debounce ∨ next.Expects look.snapshot := by
  cases h with
  | quiet hnone => cases hnone.symm.trans hpending
  | waits hsome hearly =>
    obtain ⟨-, rfl⟩ := Prod.mk.inj (Option.some.inj (hsome.symm.trans hpending))
    exact .inl ⟨rfl, hearly⟩
  | turns hnew => exact absurd hpending (hnew since)
  | reports => exact .inr ⟨rfl, rfl⟩

/-- What is seen is expected afterwards, or pending since then or for longer. -/
theorem Poll.expects_or_pending (h : Poll paths debounce watcher look changed next) :
    next.Expects look.snapshot ∨ ∃ since, next.pending = some (look.snapshot, since) ∧
      (since = look.now ∨ watcher.pending = some (look.snapshot, since)) := by
  cases h with
  | quiet hpending hlook => exact .inl ⟨hlook.symm, hpending⟩
  | @waits since hpending => exact .inr ⟨since, hpending, .inr hpending⟩
  | turns => exact .inr ⟨look.now, rfl, .inl rfl⟩
  | reports => exact .inl ⟨rfl, rfl⟩

/-- What is pending was so before, or is what has just been seen. -/
theorem Poll.pending_inv {candidate : List Fingerprint} {since : Nat}
    (h : Poll paths debounce watcher look changed next)
    (hpending : next.pending = some (candidate, since)) :
    watcher.pending = some (candidate, since) ∨ since = look.now := by
  cases h with
  | quiet | waits => exact .inl hpending
  | turns => exact .inr (Prod.mk.inj (Option.some.inj hpending)).2.symm
  | reports => cases hpending

end Watcher

end ContentSchema
