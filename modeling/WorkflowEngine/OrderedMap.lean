/-!
# Maps that remember the order of insertion

Parameters, outputs and the fields of records are written back in the order in which they were
given, so they are kept as lists of key and value.  Storing under a key that is already there
keeps the key's place and replaces its value.

* **`OrderedMap`** — the type, a list of pairs.
* **`OrderedMap.find?`**, **`OrderedMap.insert`** — look-up of the first pair with a key, and
  storage.
* **`OrderedMap.find?_insert`** — the law that ties the two together.
-/

namespace WorkflowEngine

/-- A map from names to values in order of insertion. -/
abbrev OrderedMap (α : Type) := List (String × α)

namespace OrderedMap

variable {α β : Type}

/-- The value stored under a key. -/
def find? (m : OrderedMap α) (key : String) : Option α :=
  match m with
  | [] => none
  | (k, v) :: rest => if k = key then some v else find? rest key

/-- Stores a value: in the key's place when there is one, else at the end. -/
def insert (m : OrderedMap α) (key : String) (value : α) : OrderedMap α :=
  match m with
  | [] => [(key, value)]
  | (k, v) :: rest => if k = key then (k, value) :: rest else (k, v) :: insert rest key value

/-- The keys in order. -/
def keys (m : OrderedMap α) : List String := m.map Prod.fst

/-- The values in order. -/
def values (m : OrderedMap α) : List α := m.map Prod.snd

/-- Whether a key is present. -/
def contains (m : OrderedMap α) (key : String) : Bool := (find? m key).isSome

/-- The map that results from storing the pairs one after the other. -/
def ofList (pairs : List (String × α)) : OrderedMap α :=
  pairs.foldl (fun m p => insert m p.1 p.2) []

/-- Removes the pair with a key. -/
def erase (m : OrderedMap α) (key : String) : OrderedMap α :=
  m.filter fun p => p.1 ≠ key

/-- **Look-up after storage.** -/
theorem find?_insert (m : OrderedMap α) (key key' : String) (value : α) :
    find? (insert m key value) key' = if key = key' then some value else find? m key' := by
  induction m with
  | nil => simp [insert, find?]
  | cons p rest ih =>
    obtain ⟨k, v⟩ := p
    by_cases h : k = key
    · subst h
      by_cases h' : k = key' <;> simp [insert, find?, h']
    · by_cases h' : k = key'
      · subst h'
        simp [insert, find?, h, Ne.symm h]
      · simp [insert, find?, h, h', ih]

/-- Storing under a known key keeps the list of keys. -/
theorem keys_insert_of_mem (m : OrderedMap α) (key : String) (value : α) (h : key ∈ keys m) :
    keys (insert m key value) = keys m := by
  induction m with
  | nil => simp [keys] at h
  | cons p rest ih =>
    obtain ⟨k, v⟩ := p
    by_cases hk : k = key
    · simp [insert, hk, keys]
    · have : key ∈ keys rest := by simpa [keys, Ne.symm hk] using h
      simpa [insert, hk, keys] using ih this

/-- Storing under a new key adds it at the end. -/
theorem keys_insert_of_not_mem (m : OrderedMap α) (key : String) (value : α)
    (h : key ∉ keys m) : keys (insert m key value) = keys m ++ [key] := by
  induction m with
  | nil => simp [insert, keys]
  | cons p rest ih =>
    obtain ⟨k, v⟩ := p
    have hk : k ≠ key := by
      intro e
      exact h (by simp [keys, e])
    have : key ∉ keys rest := fun hm => h (by simpa [keys] using Or.inr (by simpa [keys] using hm))
    simpa [insert, hk, keys] using ih this

end OrderedMap

end WorkflowEngine
