import Mathlib.Data.List.Nodup

/-!
# Lists of entries

A table as the list of its entries: looking up a key, storing a value under a
key and taking a key out.

## Main results

* `lookup_erase`, `lookup_replace`, `lookup_store` — what is found afterwards.
* `lookup_of_mem` — where no key occurs twice, an entry is found by its key.
-/

namespace LoginServer.Verified.KeyedEntries

variable {κ ν : Type} [DecidableEq κ] [BEq κ] [LawfulBEq κ]

/-- Take a key out. -/
def erase (entries : List (κ × ν)) (key : κ) : List (κ × ν) :=
  entries.filter fun entry => entry.1 ≠ key

/-- Change the value of a key. -/
def replace (entries : List (κ × ν)) (key : κ) (value : ν) : List (κ × ν) :=
  entries.map fun entry => if entry.1 = key then (key, value) else entry

/-- Change the value of a key, or put a new entry behind the others. -/
def store (entries : List (κ × ν)) (key : κ) (value : ν) : List (κ × ν) :=
  if key ∈ entries.map Prod.fst then replace entries key value else entries ++ [(key, value)]

variable {entries : List (κ × ν)} {key : κ} {value : ν}

theorem lookup_cons_ite (entry : κ × ν) (entries : List (κ × ν)) (key : κ) :
    (entry :: entries).lookup key = if key = entry.1 then some entry.2 else entries.lookup key := by
  rw [List.lookup_cons]
  by_cases hkey : key = entry.1
  · rw [if_pos hkey, beq_iff_eq.mpr hkey]
  · rw [if_neg hkey, beq_eq_false_iff_ne.mpr hkey]

theorem lookup_erase (entries : List (κ × ν)) (key key' : κ) :
    (erase entries key).lookup key' = if key' = key then none else entries.lookup key' := by
  induction entries with
  | nil => simp [erase]
  | cons entry entries ih =>
      unfold erase at ih ⊢
      rw [List.filter_cons, lookup_cons_ite]
      by_cases hentry : entry.1 = key
      · have hskip : decide (entry.1 ≠ key) = false := by simp [hentry]
        rw [hskip, hentry, if_neg Bool.false_ne_true, ih]
        split <;> rfl
      · have hkeep : decide (entry.1 ≠ key) = true := by simp [hentry]
        rw [hkeep, if_pos rfl, lookup_cons_ite, ih]
        by_cases hkey : key' = entry.1
        · rw [if_pos hkey, if_pos hkey, if_neg (hkey ▸ hentry)]
        · rw [if_neg hkey, if_neg hkey]

theorem lookup_replace (entries : List (κ × ν)) (key key' : κ) (value : ν) :
    (replace entries key value).lookup key' =
      if key' = key then (entries.lookup key).map fun _ => value else entries.lookup key' := by
  induction entries with
  | nil => simp [replace]
  | cons entry entries ih =>
      unfold replace at ih ⊢
      rw [List.map_cons, lookup_cons_ite, ih, lookup_cons_ite, lookup_cons_ite]
      by_cases hentry : entry.1 = key
      · rw [if_pos hentry, if_pos hentry.symm, hentry]
        split <;> rfl
      · rw [if_neg hentry, if_neg (Ne.symm hentry)]
        by_cases hkey : key' = entry.1
        · rw [if_pos hkey, if_pos hkey, if_neg (hkey ▸ hentry)]
        · rw [if_neg hkey, if_neg hkey]

theorem lookup_store (entries : List (κ × ν)) (key key' : κ) (value : ν) :
    (store entries key value).lookup key' =
      if key' = key then some value else entries.lookup key' := by
  unfold store
  split
  · rename_i hmem
    obtain ⟨old, hold⟩ : ∃ old, entries.lookup key = some old := by
      cases hlookup : entries.lookup key with
      | some old => exact ⟨old, rfl⟩
      | none =>
          obtain ⟨entry, hentry, rfl⟩ := List.mem_map.mp hmem
          simpa using List.lookup_eq_none_iff.mp hlookup entry hentry
    rw [lookup_replace, hold, Option.map_some]
  · rename_i hmem
    rw [List.lookup_append, lookup_cons_ite]
    by_cases hkey : key' = key
    · have hnone : entries.lookup key = none := by
        rw [List.lookup_eq_none_iff]
        intro entry hentry
        rw [bne_iff_ne]
        rintro rfl
        exact hmem (List.mem_map_of_mem (f := Prod.fst) hentry)
      rw [hkey, hnone, if_pos rfl, if_pos rfl, Option.none_or]
    · rw [if_neg hkey, if_neg hkey, List.lookup_nil, Option.or_none]

theorem lookup_of_mem {entry : κ × ν} (hnodup : (entries.map Prod.fst).Nodup)
    (h : entry ∈ entries) : entries.lookup entry.1 = some entry.2 := by
  induction entries with
  | nil => exact (List.not_mem_nil h).elim
  | cons first entries ih =>
      obtain ⟨hfirst, hrest⟩ := List.nodup_cons.mp hnodup
      rw [lookup_cons_ite]
      rcases List.mem_cons.mp h with rfl | h
      · rw [if_pos rfl]
      · have hmem := List.mem_map_of_mem (f := Prod.fst) h
        rw [if_neg fun heq : entry.1 = first.1 => hfirst (heq ▸ hmem), ih hrest h]

omit [DecidableEq κ] in
theorem mem_of_lookup (h : entries.lookup key = some value) : (key, value) ∈ entries := by
  obtain ⟨l₁, l₂, rfl, -⟩ := List.lookup_eq_some_iff.mp h
  simp

/-- With other values. -/
theorem lookup_map_value {ν' : Type} (f : ν → ν') (entries : List (κ × ν)) (key : κ) :
    (entries.map fun entry => (entry.1, f entry.2)).lookup key = (entries.lookup key).map f := by
  induction entries with
  | nil => rfl
  | cons entry entries ih =>
      rw [List.map_cons, lookup_cons_ite, lookup_cons_ite, ih]
      split <;> rfl

/-- In any order. -/
theorem lookup_perm {entries' : List (κ × ν)} (h : entries.Perm entries')
    (hnodup : (entries'.map Prod.fst).Nodup) (key : κ) :
    entries.lookup key = entries'.lookup key := by
  have hnodup' : (entries.map Prod.fst).Nodup := (h.map Prod.fst).nodup_iff.mpr hnodup
  cases hlookup : entries'.lookup key with
  | some value => exact lookup_of_mem hnodup' (h.mem_iff.mpr (mem_of_lookup hlookup))
  | none =>
      rw [List.lookup_eq_none_iff] at hlookup ⊢
      exact fun entry hentry => hlookup entry (h.mem_iff.mp hentry)

end LoginServer.Verified.KeyedEntries
