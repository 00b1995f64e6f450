import BuilderFields.Entries
import Mathlib.Data.List.Induction
import Mathlib.Data.List.Nodup

/-!
# Writing tables

A table built by one list of writes after another is the table built by both lists at once, and what
a table holds was written to it. Writing twice under one key leaves the second value in the first
place, which is why the order of the keys comes out the same either way.
-/

namespace BuilderFields.Entries

variable {α β : Type} [DecidableEq α]

@[simp]
theorem putAll_nil (entries : Entries α β) : entries.putAll [] = entries := rfl

theorem putAll_cons (entries : Entries α β) (entry : α × β) (later : Entries α β) :
    entries.putAll (entry :: later) = (entries.put entry.1 entry.2).putAll later := rfl

theorem putAll_append (entries first second : Entries α β) :
    entries.putAll (first ++ second) = (entries.putAll first).putAll second :=
  List.foldl_append

theorem mem_keys_put {entries : Entries α β} {key other : α} {value : β} :
    other ∈ (entries.put key value).keys ↔ other = key ∨ other ∈ entries.keys := by
  rw [keys_put]
  split
  · constructor
    · exact Or.inr
    · rintro (rfl | hother)
      · assumption
      · exact hother
  · rw [List.mem_append, List.mem_singleton, or_comm]

theorem put_put (entries : Entries α β) (key : α) (first second : β) :
    (entries.put key first).put key second = entries.put key second := by
  induction entries with
  | nil => simp [put]
  | cons entry rest ih =>
      by_cases hentry : entry.1 = key
      · simp [put, hentry]
      · simp [put, hentry, ih]

/-- A write under a known key may be moved before a write under another key. -/
theorem put_comm_of_mem {entries : Entries α β} {key other : α} (hkey : key ∈ entries.keys)
    (hne : other ≠ key) (value otherValue : β) :
    (entries.put other otherValue).put key value
      = (entries.put key value).put other otherValue := by
  induction entries with
  | nil => simp [keys] at hkey
  | cons entry rest ih =>
      by_cases hentry : entry.1 = key
      · have hother : ¬ entry.1 = other := fun h => hne (h.symm.trans hentry)
        simp [put, hentry, hne.symm]
      · have hrest : key ∈ keys rest := by
          rcases List.mem_cons.mp hkey with heq | hrest
          · exact absurd heq.symm hentry
          · exact hrest
        by_cases hother : entry.1 = other
        · simp [put, hother, hne]
        · simp [put, hentry, hother, ih hrest]

/-- A key that is there keeps its place when other keys are added. -/
theorem putAll_put_of_mem {entries later : Entries α β} {key : α} (hkey : key ∈ entries.keys)
    (hlater : key ∉ later.keys) (value : β) :
    (entries.putAll later).put key value = (entries.put key value).putAll later := by
  induction later generalizing entries with
  | nil => rfl
  | cons entry rest ih =>
      simp only [keys, List.map_cons, List.mem_cons, not_or] at hlater
      obtain ⟨hne, hrest⟩ := hlater
      rw [putAll_cons, ih (mem_keys_put.mpr (Or.inr hkey)) hrest,
        put_comm_of_mem hkey (Ne.symm hne), putAll_cons]

theorem putAll_put {later : Entries α β} (hlater : later.keys.Nodup) (entries : Entries α β)
    (key : α) (value : β) :
    entries.putAll (later.put key value) = (entries.putAll later).put key value := by
  induction later generalizing entries with
  | nil => rfl
  | cons entry rest ih =>
      simp only [keys, List.map_cons, List.nodup_cons] at hlater
      obtain ⟨hnotMem, hrest⟩ := hlater
      by_cases hentry : entry.1 = key
      · subst hentry
        have hkey : entry.1 ∈ (entries.put entry.1 entry.2).keys :=
          mem_keys_put.mpr (Or.inl rfl)
        rw [putAll_cons entries entry rest, putAll_put_of_mem hkey hnotMem, put_put]
        simp [put, putAll_cons]
      · simp only [put, hentry, if_false, putAll_cons]
        exact ih hrest _

theorem putAll_ofList (entries : Entries α β) (writes : List (α × β)) :
    entries.putAll (ofList writes) = entries.putAll writes := by
  induction writes using List.reverseRecOn with
  | nil => rfl
  | append_singleton writes entry ih =>
      have hofList : ofList (writes ++ [entry]) = (ofList writes).put entry.1 entry.2 :=
        putAll_append [] writes [entry]
      rw [hofList, putAll_put (nodup_keys_ofList writes), ih, putAll_append]
      rfl

theorem mem_put {entries : Entries α β} {key : α} {value : β} {entry : α × β}
    (h : entry ∈ entries.put key value) : entry = (key, value) ∨ entry ∈ entries := by
  induction entries with
  | nil => simpa [put] using h
  | cons first rest ih =>
      unfold put at h
      split at h
      · rcases List.mem_cons.mp h with heq | hrest
        · exact Or.inl heq
        · exact Or.inr (List.mem_cons_of_mem _ hrest)
      · rcases List.mem_cons.mp h with heq | hrest
        · exact Or.inr (heq ▸ List.mem_cons_self)
        · exact (ih hrest).imp_right (List.mem_cons_of_mem _)

theorem mem_putAll {entries later : Entries α β} {entry : α × β}
    (h : entry ∈ entries.putAll later) : entry ∈ entries ∨ entry ∈ later := by
  induction later generalizing entries with
  | nil => exact Or.inl h
  | cons first rest ih =>
      rcases ih h with hput | hrest
      · rcases mem_put hput with rfl | hold
        · exact Or.inr List.mem_cons_self
        · exact Or.inl hold
      · exact Or.inr (List.mem_cons_of_mem _ hrest)

/-- A table holds nothing that was not written to it. -/
theorem mem_of_mem_ofList {writes : List (α × β)} {entry : α × β} (h : entry ∈ ofList writes) :
    entry ∈ writes :=
  (mem_putAll h).resolve_left List.not_mem_nil

theorem mem_keys_putAll {entries later : Entries α β} {key : α} :
    key ∈ (entries.putAll later).keys ↔ key ∈ entries.keys ∨ key ∈ later.keys := by
  induction later generalizing entries with
  | nil => simp [keys]
  | cons entry rest ih =>
      rw [putAll_cons, ih, mem_keys_put]
      simp only [keys, List.map_cons, List.mem_cons]
      tauto

theorem mem_keys_ofList {writes : List (α × β)} {key : α} :
    key ∈ (ofList writes).keys ↔ key ∈ writes.map Prod.fst := by
  rw [ofList, mem_keys_putAll]
  simp [keys]

theorem get?_eq_none_iff {entries : Entries α β} {key : α} :
    entries.get? key = none ↔ key ∉ entries.keys := by
  induction entries with
  | nil => simp [keys]
  | cons entry rest ih =>
      rw [get?_cons]
      by_cases hkey : key = entry.1
      · simp [hkey, keys]
      · simpa [hkey, keys] using ih

theorem mem_of_get?_eq_some {entries : Entries α β} {key : α} {value : β}
    (h : entries.get? key = some value) : (key, value) ∈ entries := by
  induction entries with
  | nil => simp at h
  | cons entry rest ih =>
      rw [get?_cons] at h
      split at h
      · rename_i hkey
        cases h
        exact hkey ▸ List.mem_cons_self
      · exact List.mem_cons_of_mem _ (ih h)

/-- Of all writes to a key the last one is found. -/
theorem get?_ofList (writes : List (α × β)) (key : α) :
    (ofList writes).get? key =
      ((writes.filter fun write => write.1 = key).map Prod.snd).getLast? := by
  induction writes using List.reverseRecOn with
  | nil => rfl
  | append_singleton before write ih =>
      have hlast : ofList (before ++ [write]) = (ofList before).put write.1 write.2 :=
        List.foldl_append
      rw [hlast, get?_put, List.filter_append, List.map_append]
      by_cases hkey : key = write.1
      · simp [hkey]
      · simp [hkey, Ne.symm hkey, ih]

/-- What is written once under each key is found as it was written. -/
theorem get?_ofList_of_mem {writes : List (α × β)} (hnodup : (writes.map Prod.fst).Nodup)
    {key : α} {value : β} (hmem : (key, value) ∈ writes) :
    (ofList writes).get? key = some value := by
  have hkey : key ∈ (ofList writes).keys :=
    mem_keys_ofList.mpr (List.mem_map_of_mem (f := Prod.fst) hmem)
  obtain ⟨found, hfound⟩ : ∃ found, (ofList writes).get? key = some found := by
    rw [← Option.ne_none_iff_exists']
    exact fun hnone => get?_eq_none_iff.mp hnone hkey
  have hwritten := mem_of_mem_ofList (mem_of_get?_eq_some hfound)
  have heq : (key, found) = (key, value) := List.inj_on_of_nodup_map hnodup hwritten hmem rfl
  rw [hfound, (Prod.mk.inj heq).2]

omit [DecidableEq α] in
/-- What is found under each of the keys, in order, is what was written there. -/
theorem map_eq_of_forall_zip {keys : List α} {values : List β} {f : α → β}
    (hlength : keys.length = values.length)
    (h : ∀ entry ∈ keys.zip values, f entry.1 = entry.2) : keys.map f = values := by
  calc keys.map f
      = ((keys.zip values).map Prod.fst).map f := by rw [List.map_fst_zip (Nat.le_of_eq hlength)]
    _ = (keys.zip values).map Prod.snd := by
        rw [List.map_map]
        exact List.map_congr_left h
    _ = values := List.map_snd_zip (Nat.le_of_eq hlength.symm)

theorem put_of_notMem {entries : Entries α β} {key : α} (h : key ∉ entries.keys) (value : β) :
    entries.put key value = entries ++ [(key, value)] := by
  induction entries with
  | nil => rfl
  | cons entry rest ih =>
      simp only [keys, List.map_cons, List.mem_cons, not_or] at h
      obtain ⟨hne, hrest⟩ := h
      rw [put, if_neg (Ne.symm hne), ih hrest, List.cons_append]

/-- Writes under different keys, all of them new, are appended. -/
theorem putAll_of_notMem {entries later : Entries α β} (hnodup : later.keys.Nodup)
    (hnew : ∀ key ∈ entries.keys, key ∉ later.keys) : entries.putAll later = entries ++ later := by
  induction later generalizing entries with
  | nil => rw [putAll_nil, List.append_nil]
  | cons entry rest ih =>
      rw [keys, List.map_cons, List.nodup_cons] at hnodup
      have hfirst : entry.1 ∉ entries.keys := fun hmem => hnew _ hmem List.mem_cons_self
      have hrest : ∀ key ∈ keys (entries ++ [entry]), key ∉ keys rest := by
        intro key hkey
        rw [keys, List.map_append, List.mem_append] at hkey
        rcases hkey with hkey | hkey
        · exact fun hmem => hnew key hkey (List.mem_cons_of_mem _ hmem)
        · rw [List.mem_singleton.mp hkey]
          exact hnodup.1
      rw [putAll_cons, put_of_notMem hfirst, ih hnodup.2 hrest, List.append_assoc,
        List.singleton_append]

/-- Writes under different keys are the table that they leave behind. -/
theorem ofList_eq_self {writes : List (α × β)} (hnodup : (writes.map Prod.fst).Nodup) :
    ofList writes = writes :=
  putAll_of_notMem hnodup (List.forall_mem_nil _)

end BuilderFields.Entries
