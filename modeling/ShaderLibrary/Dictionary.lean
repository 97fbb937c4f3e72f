import ShaderLibrary.Text.Basic

/-!
Dictionaries from texts to values. The entries are kept in ascending order of their keys, each key
at most once, so equal contents are equal dictionaries and a listing of the keys is sorted.
-/

namespace ShaderLibrary

/-- Finitely many keys with a value each. -/
structure Dictionary (α : Type) where
  entries : List (Text × α)
  ascending : (entries.map Prod.fst).Pairwise (· < ·)

namespace Dictionary

variable {α : Type}

def empty : Dictionary α := ⟨[], .nil⟩

instance : EmptyCollection (Dictionary α) := ⟨empty⟩

instance : Inhabited (Dictionary α) := ⟨empty⟩

def get? (d : Dictionary α) (key : Text) : Option α := d.entries.lookup key

def keys (d : Dictionary α) : List Text := d.entries.map Prod.fst

def values (d : Dictionary α) : List α := d.entries.map Prod.snd

def size (d : Dictionary α) : Nat := d.entries.length

def has (d : Dictionary α) (key : Text) : Bool := (d.get? key).isSome

/-- Puts an entry in its place among ascending ones, instead of the one with the same key. -/
def insertEntry (key : Text) (value : α) : List (Text × α) → List (Text × α)
  | [] => [(key, value)]
  | entry :: rest =>
    if key < entry.1 then (key, value) :: entry :: rest
    else if key = entry.1 then (key, value) :: rest
    else entry :: insertEntry key value rest

theorem mem_keys_insertEntry {key k : Text} {value : α} {entries : List (Text × α)}
    (h : k ∈ (insertEntry key value entries).map Prod.fst) :
    k = key ∨ k ∈ entries.map Prod.fst := by
  induction entries with
  | nil => simpa [insertEntry] using h
  | cons entry rest ih =>
    rw [insertEntry] at h
    split at h
    · simpa using h
    · split at h
      · rcases List.mem_cons.mp h with h | h
        · exact .inl h
        · exact .inr (List.mem_cons_of_mem _ h)
      · rcases List.mem_cons.mp h with h | h
        · exact .inr (h ▸ List.mem_cons_self)
        · exact (ih h).imp_right (List.mem_cons_of_mem _)

theorem ascending_insertEntry {key : Text} {value : α} {entries : List (Text × α)}
    (h : (entries.map Prod.fst).Pairwise (· < ·)) :
    ((insertEntry key value entries).map Prod.fst).Pairwise (· < ·) := by
  induction entries with
  | nil => simp [insertEntry]
  | cons entry rest ih =>
    obtain ⟨above, tail⟩ := List.pairwise_cons.mp h
    rw [insertEntry]
    split
    next below =>
      refine List.pairwise_cons.mpr ⟨fun k hk => ?_, h⟩
      rcases List.mem_cons.mp hk with rfl | hk
      · exact below
      · exact List.lt_trans below (above k hk)
    next notBelow =>
      split
      next same => exact List.pairwise_cons.mpr ⟨fun k hk => same ▸ above k hk, tail⟩
      next other =>
        refine List.pairwise_cons.mpr ⟨fun k hk => ?_, ih tail⟩
        rcases mem_keys_insertEntry hk with rfl | hk
        · exact ((Std.lt_trichotomy k entry.1).resolve_left notBelow).resolve_left other
        · exact above k hk

def insert (d : Dictionary α) (key : Text) (value : α) : Dictionary α :=
  ⟨insertEntry key value d.entries, ascending_insertEntry d.ascending⟩

/-- The dictionary with `value` for `key`, unless the key has a value already. -/
def insertIfNew (d : Dictionary α) (key : Text) (value : α) : Dictionary α :=
  if d.has key then d else d.insert key value

def erase (d : Dictionary α) (key : Text) : Dictionary α where
  entries := d.entries.filter fun entry => entry.1 ≠ key
  ascending := d.ascending.sublist (List.filter_sublist.map _)

/-- The dictionary with the entries put in one after the other, so the last one of a key stays. -/
def insertMany (d : Dictionary α) (entries : List (Text × α)) : Dictionary α :=
  entries.foldl (fun d entry => d.insert entry.1 entry.2) d

theorem mem_values_of_get? {d : Dictionary α} {key : Text} {value : α}
    (h : d.get? key = some value) : value ∈ d.values := by
  obtain ⟨before, after, split, _⟩ := List.lookup_eq_some_iff.mp h
  simp [values, split]

end Dictionary

end ShaderLibrary
