import Mathlib.Data.List.Sort
import ShaderLibrary.Dictionary

/-! Dictionaries through their values: what an insertion does to the value of any key,
and that the values of all keys determine the dictionary. -/
namespace ShaderLibrary.Dictionary

variable {α : Type}

theorem lookup_insertEntry_of_ne {key other : Text} (value : α) (entries : List (Text × α))
    (hOther : other ≠ key) :
    (insertEntry key value entries).lookup other = entries.lookup other := by
  have hBeq : (other == key) = false := beq_eq_false_iff_ne.mpr hOther
  induction entries with
  | nil => simp [insertEntry, List.lookup_cons, hBeq]
  | cons entry rest ih =>
      obtain ⟨k, v⟩ := entry
      rw [insertEntry]
      split
      · simp only [List.lookup_cons, hBeq]
      · split
        · next hSame =>
            have hSame : key = k := hSame
            subst hSame
            simp only [List.lookup_cons, hBeq]
        · simp only [List.lookup_cons, ih]

theorem lookup_insertEntry_self (key : Text) (value : α) (entries : List (Text × α)) :
    (insertEntry key value entries).lookup key = some value := by
  induction entries with
  | nil => simp [insertEntry]
  | cons entry rest ih =>
      obtain ⟨k, v⟩ := entry
      rw [insertEntry]
      split
      · simp
      · split
        · simp
        · next hOther =>
            have hBeq : (key == k) = false := beq_eq_false_iff_ne.mpr hOther
            simp only [List.lookup_cons, hBeq, ih]

theorem get?_insert (d : Dictionary α) (key : Text) (value : α) (other : Text) :
    (d.insert key value).get? other = if other = key then some value else d.get? other := by
  by_cases hOther : other = key
  · subst hOther
    rw [if_pos rfl]
    exact lookup_insertEntry_self other value d.entries
  · rw [if_neg hOther]
    exact lookup_insertEntry_of_ne value d.entries hOther

/-- A value that is there stays. -/
theorem get?_insertIfNew (d : Dictionary α) (key : Text) (value : α) (other : Text) :
    (d.insertIfNew key value).get? other =
      (d.get? other).or (if other = key then some value else none) := by
  rw [insertIfNew, has]
  cases hKey : d.get? key with
  | some old =>
      rw [Option.isSome_some, if_pos rfl]
      by_cases hOther : other = key
      · rw [hOther, hKey, Option.some_or]
      · rw [if_neg hOther, Option.or_none]
  | none =>
      rw [Option.isSome_none, if_neg Bool.false_ne_true, get?_insert]
      by_cases hOther : other = key
      · rw [hOther, hKey, if_pos rfl, Option.none_or]
      · rw [if_neg hOther, if_neg hOther, Option.or_none]

/-- A lookup finds any entry of a key that has one value only. -/
theorem lookup_eq_some_iff_mem {entries : List (Text × α)} {key : Text} {value : α}
    (hOne : ∀ v w, (key, v) ∈ entries → (key, w) ∈ entries → v = w) :
    entries.lookup key = some value ↔ (key, value) ∈ entries := by
  have hMem {v : α} (h : entries.lookup key = some v) : (key, v) ∈ entries := by
    obtain ⟨before, later, hSplit, -⟩ := List.lookup_eq_some_iff.mp h
    simp [hSplit]
  constructor
  · exact hMem
  · intro h
    have hSome : (entries.lookup key).isSome = true :=
      List.lookup_isSome_iff.mpr ⟨(key, value), h, beq_self_eq_true key⟩
    obtain ⟨other, hOther⟩ := Option.isSome_iff_exists.mp hSome
    rw [hOther, hOne other value (hMem hOther) h]

theorem nodup_keys (d : Dictionary α) : d.keys.Nodup := by
  refine d.ascending.imp fun {a b} hLess hSame => ?_
  rw [hSame] at hLess
  exact List.lt_irrefl b hLess

/-- Each key has one entry at most, so an entry tells the value of its key. -/
theorem get?_eq_some_iff {d : Dictionary α} {key : Text} {value : α} :
    d.get? key = some value ↔ (key, value) ∈ d.entries := by
  apply lookup_eq_some_iff_mem
  intro v w hv hw
  exact congrArg Prod.snd (List.inj_on_of_nodup_map d.nodup_keys hv hw rfl)

theorem mem_keys_iff {d : Dictionary α} {key : Text} :
    key ∈ d.keys ↔ ∃ value, d.get? key = some value := by
  simp only [keys, List.mem_map, get?_eq_some_iff, Prod.exists, exists_and_right, exists_eq_right]

theorem ext_get? {d e : Dictionary α} (h : ∀ key, d.get? key = e.get? key) : d = e := by
  have hIrrefl : Std.Irrefl fun a b : Text × α => a.1 < b.1 := ⟨fun a => List.lt_irrefl a.1⟩
  have hAntisymm : Std.Antisymm fun a b : Text × α => a.1 < b.1 :=
    ⟨fun a b hab hba => absurd (List.lt_trans hab hba) (List.lt_irrefl a.1)⟩
  have hEntries : d.entries = e.entries := by
    refine (List.pairwise_map.mp d.ascending).eq_of_mem_iff (List.pairwise_map.mp e.ascending) ?_
    rintro ⟨key, value⟩
    rw [← get?_eq_some_iff, ← get?_eq_some_iff, h]
  cases d
  cases e
  cases hEntries
  rfl

theorem get?_erase (d : Dictionary α) (key other : Text) :
    (d.erase key).get? other = if other = key then none else d.get? other := by
  ext value
  have hEntry : (other, value) ∈ (d.erase key).entries ↔ (other, value) ∈ d.entries ∧ other ≠ key := by
    simp [erase]
  rw [get?_eq_some_iff, hEntry, ← get?_eq_some_iff]
  by_cases hOther : other = key
  · simp [hOther]
  · simp [hOther]

theorem mem_values_iff {d : Dictionary α} {v : α} : v ∈ d.values ↔ ∃ key, d.get? key = some v := by
  simp only [values, List.mem_map, get?_eq_some_iff, Prod.exists, exists_eq_right]

theorem mem_values_of_insert {d : Dictionary α} {key : Text} {value v : α}
    (h : v ∈ (d.insert key value).values) : v = value ∨ v ∈ d.values := by
  obtain ⟨k, hk⟩ := mem_values_iff.mp h
  rw [get?_insert] at hk
  split at hk
  · exact Or.inl (Option.some.inj hk).symm
  · exact Or.inr (mem_values_iff.mpr ⟨k, hk⟩)

/-- The entries of another dictionary come before those that are there. -/
theorem get?_insertMany (d e : Dictionary α) (key : Text) :
    (d.insertMany e.entries).get? key = (e.get? key).or (d.get? key) := by
  obtain ⟨entries, ascending⟩ := e
  show (d.insertMany entries).get? key = (entries.lookup key).or (d.get? key)
  induction entries generalizing d with
  | nil => rfl
  | cons entry rest ih =>
      obtain ⟨k, v⟩ := entry
      obtain ⟨hAbove, hRest⟩ := List.pairwise_cons.mp ascending
      have hMany : d.insertMany ((k, v) :: rest) = (d.insert k v).insertMany rest := rfl
      rw [hMany, ih (d.insert k v) hRest, get?_insert, List.lookup_cons]
      by_cases hSame : key = k
      · subst hSame
        have hNone : rest.lookup key = none := by
          apply List.lookup_eq_none_iff.mpr
          intro other hOther
          apply bne_iff_ne.mpr
          intro hKey
          exact List.lt_irrefl key (hAbove key (hKey ▸ List.mem_map_of_mem hOther))
        simp [hNone]
      · have hBeq : (key == k) = false := beq_eq_false_iff_ne.mpr hSame
        simp only [hSame, hBeq, if_false]

theorem mem_values_of_insertMany {d : Dictionary α} {entries : List (Text × α)} {v : α}
    (h : v ∈ (d.insertMany entries).values) : v ∈ d.values ∨ v ∈ entries.map Prod.snd := by
  induction entries generalizing d with
  | nil => exact Or.inl h
  | cons entry rest ih =>
      rcases ih h with hBefore | hRest
      · rcases mem_values_of_insert hBefore with rfl | hOld
        · exact Or.inr List.mem_cons_self
        · exact Or.inl hOld
      · exact Or.inr (List.mem_cons_of_mem _ hRest)

end ShaderLibrary.Dictionary
