/-!
# Ordered dictionaries

A dictionary that keeps insertion order is a plain list of pairs, so that trees built from it stay
ordinary nested data and every traversal is a list recursion. `insert` writes at the key's first
position or at the end, and `ofList` folds it, which is the reading rule for repeated keys: the last
value wins and stands where the key first stood.

Distinctness of keys is a predicate, `DistinctKeys`, beside the data and not a field of it;
`distinctKeys_ofList` says every dictionary that is built here has it.
-/

namespace ContentSchema

/-- A dictionary in insertion order. -/
abbrev Keyed (α : Type) := List (String × α)

namespace Keyed

variable {α β : Type}

/-- The value of the first entry for `key`. -/
def find? (entries : Keyed α) (key : String) : Option α :=
  match entries with
  | [] => none
  | (name, value) :: rest => if name = key then some value else find? rest key

/-- Sets `key` to `value`: in place where the key first stands, else at the end. -/
def insert (entries : Keyed α) (key : String) (value : α) : Keyed α :=
  match entries with
  | [] => [(key, value)]
  | (name, old) :: rest =>
    if name = key then (name, value) :: rest else (name, old) :: insert rest key value

/-- Applies `f` to the first value of `key`, if there is one. -/
def modify (entries : Keyed α) (key : String) (f : α → α) : Keyed α :=
  match entries with
  | [] => []
  | (name, value) :: rest =>
    if name = key then (name, f value) :: rest else (name, value) :: modify rest key f

/-- Drops all entries for `key`. -/
def erase (entries : Keyed α) (key : String) : Keyed α := entries.filter fun entry ↦ entry.1 ≠ key

/-- The dictionary of a list of entries read from left to right. -/
def ofList (entries : List (String × α)) : Keyed α :=
  entries.foldl (fun dict entry ↦ dict.insert entry.1 entry.2) []

/-- The keys, in order. -/
def keys (entries : Keyed α) : List String := entries.map (·.1)

/-- The values, in order. -/
def values (entries : Keyed α) : List α := entries.map (·.2)

/-- Applies `f` to every value. -/
def mapValues (f : α → β) (entries : Keyed α) : Keyed β :=
  entries.map fun entry ↦ (entry.1, f entry.2)

/-- Whether `key` has an entry. -/
def contains (entries : Keyed α) (key : String) : Bool := (entries.find? key).isSome

/-- No key stands twice. -/
def DistinctKeys (entries : Keyed α) : Prop := entries.keys.Nodup

/-! ### Small laws -/

@[simp] theorem find?_nil (key : String) : find? ([] : Keyed α) key = none := rfl

theorem find?_cons (name : String) (value : α) (rest : Keyed α) (key : String) :
    find? ((name, value) :: rest) key = if name = key then some value else find? rest key := rfl

@[simp] theorem keys_nil : keys ([] : Keyed α) = [] := rfl

@[simp] theorem keys_cons (entry : String × α) (rest : Keyed α) :
    keys (entry :: rest) = entry.1 :: keys rest := rfl

/-- After writing a key, reading it gives the value and every other key is as before. -/
theorem find?_insert (entries : Keyed α) (key other : String) (value : α) :
    find? (insert entries key value) other = if key = other then some value else find? entries other := by
  induction entries with
  | nil => simp [insert, find?_cons]
  | cons entry rest ih =>
    obtain ⟨name, old⟩ := entry
    by_cases hname : name = key
    · subst hname
      by_cases hother : name = other <;> simp [insert, find?_cons, hother]
    · by_cases hother : name = other
      · subst hother
        simp [insert, find?_cons, hname, Ne.symm hname]
      · simp [insert, find?_cons, hname, hother, ih]

/-- Writing a key keeps the others in place and adds it at the end when it is new. -/
theorem keys_insert (entries : Keyed α) (key : String) (value : α) :
    keys (insert entries key value) = if key ∈ keys entries then keys entries else keys entries ++ [key] := by
  induction entries with
  | nil => simp [insert]
  | cons entry rest ih =>
    obtain ⟨name, old⟩ := entry
    by_cases hname : name = key
    · simp [insert, hname]
    · by_cases hmem : key ∈ keys rest <;> simp [insert, hname, Ne.symm hname, ih, hmem]

/-- Changing a value keeps all keys in place. -/
@[simp] theorem keys_modify (entries : Keyed α) (key : String) (f : α → α) :
    keys (modify entries key f) = keys entries := by
  induction entries with
  | nil => rfl
  | cons entry rest ih =>
    obtain ⟨name, old⟩ := entry
    by_cases hname : name = key <;> simp [modify, hname, ih]

/-- After changing a key's value, reading it gives the changed value and every other key is as before. -/
theorem find?_modify (entries : Keyed α) (key other : String) (f : α → α) :
    find? (modify entries key f) other =
      if key = other then (find? entries other).map f else find? entries other := by
  induction entries with
  | nil => simp [modify]
  | cons entry rest ih =>
    obtain ⟨name, old⟩ := entry
    by_cases hname : name = key
    · subst hname
      by_cases hother : name = other <;> simp [modify, find?_cons, hother]
    · by_cases hother : name = other
      · subst hother
        simp [modify, find?_cons, hname, Ne.symm hname]
      · simp [modify, find?_cons, hname, hother, ih]

/-- Dropping a key that was new when it was written leaves what was there before. -/
theorem erase_insert_of_not_mem (entries : Keyed α) (key : String) (value : α)
    (hnew : key ∉ keys entries) : erase (insert entries key value) key = entries := by
  induction entries with
  | nil => simp [insert, erase]
  | cons entry rest ih =>
    obtain ⟨name, old⟩ := entry
    simp only [keys_cons, List.mem_cons, not_or] at hnew
    have hname : name ≠ key := Ne.symm hnew.1
    simpa [insert, erase, hname] using ih hnew.2

theorem DistinctKeys.insert {entries : Keyed α} (h : entries.DistinctKeys) (key : String) (value : α) :
    (entries.insert key value).DistinctKeys := by
  unfold DistinctKeys at h ⊢
  rw [keys_insert]
  split
  · exact h
  · rename_i hnew
    rw [List.nodup_append]
    refine ⟨h, by simp, ?_⟩
    intro a ha b hb heq
    simp only [List.mem_singleton] at hb
    exact hnew (hb ▸ heq ▸ ha)

/-- Every dictionary built from a list has distinct keys. -/
theorem distinctKeys_ofList (entries : List (String × α)) : (ofList entries).DistinctKeys := by
  have step : ∀ (rest : List (String × α)) (dict : Keyed α), dict.DistinctKeys →
      (rest.foldl (fun dict entry ↦ dict.insert entry.1 entry.2) dict).DistinctKeys := by
    intro rest
    induction rest with
    | nil => exact fun _ h ↦ h
    | cons entry rest ih => exact fun dict h ↦ ih _ (h.insert entry.1 entry.2)
  exact step entries [] (by simp [DistinctKeys])

end Keyed

end ContentSchema
