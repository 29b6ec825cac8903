import Mathlib.Data.List.Induction
import ContentSchema.Keyed
/-!
# Reading dictionaries

What a dictionary holds, entry by entry: under distinct keys every entry is found by its key, and a
dictionary that is read from a list has the keys of the list in the order in which they first stand,
each with the value that stands last.

The two facts about `ofList` are proved from the right end of the list, since `ofList` writes the
entries from left to right and the last write decides.

To look up takes the first entry for a key, and to write goes to that entry, so most laws hold of
any list of entries. Distinct keys are needed where the entries themselves count: to find each of
them by its key, to know a dictionary by what its keys find (`DistinctKeys.eq_of_find?_eq`), and to
have a list back from the dictionary that is read from it (`ofList_of_distinctKeys`).
-/

namespace ContentSchema

namespace Keyed

variable {α : Type}

/-! ### Entries and keys -/

theorem mem_keys_of_mem {entries : Keyed α} {name : String} {value : α}
    (hmem : (name, value) ∈ entries) : name ∈ entries.keys :=
  List.mem_map.2 ⟨(name, value), hmem, rfl⟩

@[simp] theorem keys_append (entries rest : Keyed α) :
    keys (entries ++ rest) = keys entries ++ keys rest :=
  List.map_append

@[simp] theorem distinctKeys_nil : DistinctKeys ([] : Keyed α) := List.nodup_nil

@[simp] theorem distinctKeys_cons (entry : String × α) (rest : Keyed α) :
    DistinctKeys (entry :: rest) ↔ entry.1 ∉ keys rest ∧ DistinctKeys rest := by
  rw [DistinctKeys, keys_cons, List.nodup_cons, DistinctKeys]

/-- Under distinct keys every entry is the one that its key finds. -/
theorem DistinctKeys.find?_eq_of_mem {entries : Keyed α} (h : entries.DistinctKeys) {name : String}
    {value : α} (hmem : (name, value) ∈ entries) : entries.find? name = some value := by
  induction entries with
  | nil => simp at hmem
  | cons entry rest ih =>
    obtain ⟨hfirst, hrest⟩ := (distinctKeys_cons entry rest).1 h
    rcases List.mem_cons.1 hmem with rfl | hmem
    · simp [find?_cons]
    · have hne : entry.1 ≠ name := fun heq ↦ hfirst (heq ▸ mem_keys_of_mem hmem)
      rw [find?_cons, if_neg hne]
      exact ih hrest hmem

/-- A value that is found stands among the entries, under its key. -/
theorem mem_of_find? {entries : Keyed α} {name : String} {value : α}
    (h : entries.find? name = some value) : (name, value) ∈ entries := by
  induction entries with
  | nil => simp at h
  | cons entry rest ih =>
    obtain ⟨key, old⟩ := entry
    rw [find?_cons] at h
    split at h
    next hkey =>
      obtain rfl := Option.some.inj h
      exact hkey ▸ List.mem_cons_self
    next => exact List.mem_cons_of_mem _ (ih h)

/-- The first entry for a key is in the first of two parts that has one. -/
@[simp] theorem find?_append (entries rest : Keyed α) (key : String) :
    find? (entries ++ rest) key = (find? entries key).or (find? rest key) := by
  induction entries with
  | nil => rfl
  | cons entry entries ih =>
    rw [List.cons_append, find?_cons, find?_cons, ih]
    split <;> rfl

/-- There is no value for a key just when the key is not among the keys. -/
theorem find?_eq_none_iff {entries : Keyed α} {key : String} :
    entries.find? key = none ↔ key ∉ entries.keys := by
  induction entries with
  | nil => simp
  | cons entry rest ih =>
    obtain ⟨name, value⟩ := entry
    rw [find?_cons, keys_cons, List.mem_cons, not_or, ← ih]
    split <;> simp_all [eq_comm]

/-- A dictionary is known by its keys, in order, and by what they find. -/
theorem DistinctKeys.eq_of_find?_eq {entries others : Keyed α} (h : entries.DistinctKeys)
    (hkeys : entries.keys = others.keys) (hfind : ∀ key, entries.find? key = others.find? key) :
    entries = others := by
  induction entries generalizing others with
  | nil => exact (List.map_eq_nil_iff.1 hkeys.symm).symm
  | cons entry rest ih =>
    obtain ⟨key, value⟩ := entry
    obtain ⟨⟨key', value'⟩, rest', rfl, rfl, hrest⟩ := List.map_eq_cons_iff.1 hkeys.symm
    change keys rest' = keys rest at hrest
    obtain ⟨hfirst, hdistinct⟩ := (distinctKeys_cons _ rest).1 h
    have hvalue : value = value' := by simpa [find?_cons] using hfind key'
    rw [hvalue, ih hdistinct hrest.symm fun other ↦ ?_]
    by_cases hother : key' = other
    · subst hother
      rw [find?_eq_none_iff.2 hfirst, find?_eq_none_iff.2 (hrest ▸ hfirst)]
    · simpa [find?_cons, hother] using hfind other

/-- Among the entries whose keys are kept, a key that is kept finds what it found before. -/
theorem find?_filter (entries : Keyed α) (kept : String → Bool) (key : String) :
    find? (entries.filter (kept ·.1)) key = if kept key then find? entries key else none := by
  induction entries with
  | nil => simp
  | cons entry rest ih =>
    obtain ⟨name, value⟩ := entry
    rw [List.filter_cons]
    by_cases hname : name = key
    · subst hname
      cases hkept : kept name <;> simp [find?_cons, ih, hkept]
    · cases kept name <;> simp [find?_cons, ih, hname]

/-- After dropping a key, reading it gives nothing and every other key is as before. -/
theorem find?_erase (entries : Keyed α) (key other : String) :
    find? (erase entries key) other = if key = other then none else find? entries other := by
  rw [erase, find?_filter entries (fun name ↦ name ≠ key)]
  by_cases h : key = other
  · simp [h]
  · simp [h, Ne.symm h]

/-- Under distinct keys a key has no entry but the one that it finds. -/
theorem DistinctKeys.filter_eq_singleton {entries : Keyed α} (h : entries.DistinctKeys)
    {name : String} {value : α} (hfind : entries.find? name = some value) :
    entries.filter (·.1 == name) = [(name, value)] := by
  induction entries with
  | nil => simp at hfind
  | cons entry rest ih =>
    obtain ⟨key, old⟩ := entry
    obtain ⟨hfirst, hrest⟩ := (distinctKeys_cons _ rest).1 h
    rw [find?_cons] at hfind
    split at hfind
    next hkey =>
      obtain rfl := Option.some.inj hfind
      rw [List.filter_cons_of_pos (by simpa using hkey), List.filter_eq_nil_iff.2, hkey]
      intro other hother heq
      have hname : other.1 = name := by simpa using heq
      exact hfirst (List.mem_map.2 ⟨other, hother, hname.trans hkey.symm⟩)
    next hkey => rw [List.filter_cons_of_neg (by simpa using hkey), ih hrest hfind]

/-- Two dictionaries with the same keys in the same order find values that correspond. -/
theorem exists_find?_iff {β : Type} {p : α → Prop} {q : β → Prop} {entries : Keyed α}
    {others : Keyed β}
    (h : List.Forall₂ (fun entry other ↦ entry.1 = other.1 ∧ (p entry.2 ↔ q other.2)) entries others)
    (key : String) :
    (∃ value, entries.find? key = some value ∧ p value) ↔
      ∃ value, others.find? key = some value ∧ q value := by
  induction h with
  | nil => simp
  | @cons entry other entries others hentry h ih =>
    obtain ⟨hname, hvalue⟩ := hentry
    rw [find?_cons, find?_cons, hname]
    split
    · simpa using hvalue
    · exact ih

/-- Changing a value to itself changes nothing. -/
theorem modify_of_fixed {entries : Keyed α} {key : String} {f : α → α}
    (hfixed : ∀ value, entries.find? key = some value → f value = value) :
    entries.modify key f = entries := by
  induction entries with
  | nil => rfl
  | cons entry rest ih =>
    obtain ⟨name, old⟩ := entry
    by_cases hname : name = key
    · have hold : f old = old := hfixed old (by simp [find?_cons, hname])
      simp [modify, hname, hold]
    · have hrest : modify rest key f = rest := ih fun value hvalue ↦
        hfixed value (by simpa [find?_cons, hname] using hvalue)
      simp [modify, hname, hrest]

/-- A new key goes to the end. -/
theorem insert_of_notMem_keys {entries : Keyed α} {key : String} (hnew : key ∉ entries.keys)
    (value : α) : entries.insert key value = entries ++ [(key, value)] := by
  induction entries with
  | nil => rfl
  | cons entry rest ih =>
    obtain ⟨name, old⟩ := entry
    rw [keys_cons, List.mem_cons, not_or] at hnew
    have hname : name ≠ key := Ne.symm hnew.1
    rw [insert, if_neg hname, ih hnew.2, List.cons_append]

/-- Writing entries with distinct new keys one by one puts them all at the end. -/
theorem foldl_insert_of_distinctKeys {entries others : Keyed α}
    (h : DistinctKeys (entries ++ others)) :
    others.foldl (fun dict entry ↦ dict.insert entry.1 entry.2) entries = entries ++ others := by
  induction others generalizing entries with
  | nil => simp
  | cons entry others ih =>
    have hnew : entry.1 ∉ entries.keys := by
      intro hmem
      rw [DistinctKeys, keys_append, List.nodup_append] at h
      exact h.2.2 _ hmem _ List.mem_cons_self rfl
    rw [List.foldl_cons, insert_of_notMem_keys hnew, ih (by simpa using h)]
    simp

/-! ### Writing and changing twice -/

/-- Of two values that are written for one key the second stays, where the first was put. -/
theorem insert_insert (entries : Keyed α) (key : String) (old value : α) :
    (entries.insert key old).insert key value = entries.insert key value := by
  induction entries with
  | nil => simp [insert]
  | cons entry rest ih =>
    by_cases hname : entry.1 = key
    · simp [insert, hname]
    · simp [insert, hname, ih]

theorem modify_modify (entries : Keyed α) (key : String) (f g : α → α) :
    (entries.modify key f).modify key g = entries.modify key fun value ↦ g (f value) := by
  induction entries with
  | nil => rfl
  | cons entry rest ih =>
    by_cases hname : entry.1 = key
    · simp [modify, hname]
    · simp [modify, hname, ih]

/-- Values of different keys can be changed in either order. -/
theorem modify_comm {key other : String} (hne : key ≠ other) (entries : Keyed α) (f g : α → α) :
    (entries.modify key f).modify other g = (entries.modify other g).modify key f := by
  induction entries with
  | nil => rfl
  | cons entry rest ih =>
    by_cases hkey : entry.1 = key
    · simp [modify, hkey, hne]
    · by_cases hother : entry.1 = other
      · simp [modify, hother, hne.symm]
      · simp [modify, hkey, hother, ih]

/-- Writing one key and changing the value of another can be done in either order. -/
theorem modify_insert {key other : String} (hne : key ≠ other) (entries : Keyed α) (value : α)
    (f : α → α) :
    (entries.insert key value).modify other f = (entries.modify other f).insert key value := by
  induction entries with
  | nil => simp [insert, modify, hne]
  | cons entry rest ih =>
    by_cases hkey : entry.1 = key
    · simp [insert, modify, hkey, hne]
    · by_cases hother : entry.1 = other
      · simp [insert, modify, hother, hne.symm]
      · simp [insert, modify, hkey, hother, ih]

/-- Changing all values leaves each one at its key. -/
theorem find?_mapValues {β : Type} (f : α → β) (entries : Keyed α) (key : String) :
    (entries.mapValues f).find? key = (entries.find? key).map f := by
  induction entries with
  | nil => rfl
  | cons entry rest ih =>
    rw [mapValues, List.map_cons, find?_cons, find?_cons, ← mapValues, ih]
    split <;> rfl

theorem mapValues_mapValues {β γ : Type} (f : α → β) (g : β → γ) (entries : Keyed α) :
    (entries.mapValues f).mapValues g = entries.mapValues fun value ↦ g (f value) := by
  simp [mapValues]

/-! ### Dictionaries read from a list -/

/-- One more entry is inserted last; the value of a repeated key stays at its first place. -/
theorem ofList_concat (entries : List (String × α)) (entry : String × α) :
    ofList (entries ++ [entry]) = (ofList entries).insert entry.1 entry.2 := by
  rw [ofList, List.foldl_append]
  rfl

/-- A list without repeated keys is the dictionary that is read from it. -/
theorem ofList_of_distinctKeys {entries : Keyed α} (h : entries.DistinctKeys) :
    ofList entries = entries :=
  foldl_insert_of_distinctKeys (show DistinctKeys ([] ++ entries) from h)

/-- The keys stand in the order of their first entries. -/
theorem keys_ofList (entries : List (String × α)) :
    (ofList entries).keys = (entries.map (·.1)).eraseDups := by
  induction entries using List.reverseRec with
  | nil => rfl
  | append_singleton entries entry ih =>
    rw [ofList_concat, keys_insert, ih, List.map_append, List.eraseDups_append]
    by_cases hmem : entry.1 ∈ entries.map (·.1) <;>
      simp [List.removeAll, hmem, List.eraseDups_cons]

/-- Each key has the value of its last entry. -/
theorem find?_ofList (entries : List (String × α)) (key : String) :
    (ofList entries).find? key = ((entries.filter (·.1 = key)).getLast?).map (·.2) := by
  induction entries using List.reverseRec with
  | nil => rfl
  | append_singleton entries entry ih =>
    rw [ofList_concat, find?_insert, ih, List.filter_append, List.getLast?_append]
    by_cases hkey : entry.1 = key <;> simp [hkey]

theorem mem_of_mem_ofList {entries : List (String × α)} {entry : String × α}
    (hmem : entry ∈ ofList entries) : entry ∈ entries := by
  have hfind : (ofList entries).find? entry.1 = some entry.2 :=
    (distinctKeys_ofList entries).find?_eq_of_mem hmem
  rw [find?_ofList] at hfind
  obtain ⟨last, hlast, hvalue⟩ := Option.map_eq_some_iff.1 hfind
  obtain ⟨hlast, hkey⟩ := List.mem_filter.1 (List.mem_of_getLast? hlast)
  have heq : last = entry := Prod.ext (of_decide_eq_true hkey) hvalue
  exact heq ▸ hlast

end Keyed

end ContentSchema
