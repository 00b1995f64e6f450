/-!
# Entries in the order of their first insertion

A table of keys and values that remembers when each key came first. Putting a known key replaces its
value where it stands, and a new key goes to the end. Reading a table is a list look-up, so
`get?_put` is the whole account of a write, and `keys_put` is the whole account of the order.
-/

namespace BuilderFields

abbrev Entries (α β : Type) := List (α × β)

namespace Entries

variable {α β : Type} [DecidableEq α]

def keys (entries : Entries α β) : List α :=
  entries.map Prod.fst

def get? (entries : Entries α β) (key : α) : Option β :=
  entries.lookup key

def contains (entries : Entries α β) (key : α) : Bool :=
  (entries.get? key).isSome

/-- The value goes to the key's own place if it has one, and to the end otherwise. -/
def put : Entries α β → α → β → Entries α β
  | [], key, value => [(key, value)]
  | entry :: rest, key, value =>
    if entry.1 = key then (key, value) :: rest else entry :: put rest key value

def putAll (entries later : Entries α β) : Entries α β :=
  later.foldl (fun table entry => table.put entry.1 entry.2) entries

def ofList (writes : List (α × β)) : Entries α β :=
  putAll [] writes

@[simp]
theorem get?_nil (key : α) : get? ([] : Entries α β) key = none := rfl

theorem get?_cons (entry : α × β) (rest : Entries α β) (key : α) :
    get? (entry :: rest) key = if key = entry.1 then some entry.2 else get? rest key := by
  unfold get?
  rw [List.lookup_cons]
  by_cases h : key = entry.1
  · simp [h]
  · have hbeq : (key == entry.1) = false := by simpa using h
    simp [hbeq, h]

theorem get?_put (entries : Entries α β) (key other : α) (value : β) :
    (entries.put key value).get? other = if other = key then some value else entries.get? other := by
  induction entries with
  | nil => simp [put, get?_cons]
  | cons entry rest ih =>
    unfold put
    by_cases hentry : entry.1 = key
    · by_cases hother : other = key <;> simp_all [get?_cons]
    · by_cases hother : other = key
      · have hne : ¬ other = entry.1 := fun h => hentry (h ▸ hother)
        simp_all [get?_cons]
      · simp_all [get?_cons]

theorem keys_put (entries : Entries α β) (key : α) (value : β) :
    (entries.put key value).keys =
      if key ∈ entries.keys then entries.keys else entries.keys ++ [key] := by
  induction entries with
  | nil => simp [put, keys]
  | cons entry rest ih =>
    unfold put
    by_cases hentry : entry.1 = key
    · simp [hentry, keys]
    · have hne : ¬ key = entry.1 := fun h => hentry h.symm
      by_cases hmem : key ∈ keys rest <;> simp_all [keys]

theorem nodup_keys_put {entries : Entries α β} (h : entries.keys.Nodup) (key : α) (value : β) :
    (entries.put key value).keys.Nodup := by
  rw [keys_put]
  split
  · exact h
  · rename_i hmem
    rw [List.nodup_append]
    refine ⟨h, by simp, ?_⟩
    intro a ha b hb heq
    simp only [List.mem_singleton] at hb
    exact hmem (hb ▸ heq ▸ ha)

theorem nodup_keys_putAll {entries : Entries α β} (h : entries.keys.Nodup) (later : Entries α β) :
    (entries.putAll later).keys.Nodup := by
  induction later generalizing entries with
  | nil => exact h
  | cons entry rest ih => exact ih (nodup_keys_put h entry.1 entry.2)

theorem nodup_keys_ofList (writes : List (α × β)) : (ofList writes).keys.Nodup :=
  nodup_keys_putAll (by simp [keys]) writes

end Entries

end BuilderFields
