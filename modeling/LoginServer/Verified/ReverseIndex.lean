import Mathlib.Data.List.Nodup

/-!
# An index kept beside the tables it is made from

Owners have tables over the same keys, and an index lists for every key the
owners that have something there.  Nothing ties the index to the tables but
the code that updates both: `Mirrors` is what it has to keep, and the rules
below are the three updates that keep it.

## Main results

* `Mirrors.enlist`, `Mirrors.delist` — an owner gets something at a key, or
  loses the last of it.
* `Mirrors.congr` — nothing appears and nothing runs out.
-/

namespace LoginServer.Verified.ReverseIndex

variable {α κ : Type}

/-- Every owner is listed once at the keys where it has something, and
nowhere else. -/
structure Mirrors (index : κ → List α) (has : α → κ → Prop) : Prop where
  nodup : ∀ k, (index k).Nodup
  listed : ∀ k a, a ∈ index k ↔ has a k

section
variable {index index' : κ → List α} {has has' : α → κ → Prop}

theorem Mirrors.congr (h : Mirrors index has) (hindex : ∀ k, index' k = index k)
    (hhas : ∀ a k, has' a k ↔ has a k) : Mirrors index' has' := by
  constructor
  · intro k
    rw [hindex]
    exact h.nodup k
  · intro k a
    rw [hindex, hhas]
    exact h.listed k a

/-- One key and one owner change. -/
theorem Mirrors.update (h : Mirrors index has) (key : κ) (owner : α)
    (hindex : ∀ k, k ≠ key → index' k = index k)
    (hhas : ∀ a k, ¬ (a = owner ∧ k = key) → (has' a k ↔ has a k))
    (hnodup : (index' key).Nodup)
    (howner : owner ∈ index' key ↔ has' owner key)
    (hothers : ∀ a, a ≠ owner → (a ∈ index' key ↔ a ∈ index key)) :
    Mirrors index' has' := by
  constructor
  · intro k
    by_cases hk : k = key
    · rw [hk]
      exact hnodup
    · rw [hindex k hk]
      exact h.nodup k
  · intro k a
    by_cases hk : k = key
    · subst hk
      by_cases ha : a = owner
      · subst ha
        exact howner
      · rw [hothers a ha, hhas a k (fun hboth => ha hboth.1)]
        exact h.listed k a
    · rw [hindex k hk, hhas a k (fun hboth => hk hboth.2)]
      exact h.listed k a

/-- An owner gets something at a key. -/
theorem Mirrors.enlist [DecidableEq α] (h : Mirrors index has) (key : κ) (owner : α)
    (hkey : index' key = if owner ∈ index key then index key else index key ++ [owner])
    (hindex : ∀ k, k ≠ key → index' k = index k) (howner : has' owner key)
    (hhas : ∀ a k, ¬ (a = owner ∧ k = key) → (has' a k ↔ has a k)) :
    Mirrors index' has' := by
  by_cases hmem : owner ∈ index key
  · rw [if_pos hmem] at hkey
    apply h.update key owner hindex hhas
    · rw [hkey]
      exact h.nodup key
    · rw [hkey]
      exact iff_of_true hmem howner
    · intro a _
      rw [hkey]
  · rw [if_neg hmem] at hkey
    apply h.update key owner hindex hhas
    · rw [hkey, List.nodup_append]
      refine ⟨h.nodup key, List.nodup_singleton owner, ?_⟩
      intro a ha b hb hab
      rw [hab, List.mem_singleton.mp hb] at ha
      exact hmem ha
    · rw [hkey]
      exact iff_of_true (List.mem_append_right _ List.mem_cons_self) howner
    · intro a ha
      rw [hkey]
      simp [ha]

/-- An owner loses the last it had at a key. -/
theorem Mirrors.delist [DecidableEq α] (h : Mirrors index has) (key : κ) (owner : α)
    (hkey : index' key = (index key).filter (· ≠ owner))
    (hindex : ∀ k, k ≠ key → index' k = index k) (howner : ¬ has' owner key)
    (hhas : ∀ a k, ¬ (a = owner ∧ k = key) → (has' a k ↔ has a k)) :
    Mirrors index' has' := by
  apply h.update key owner hindex hhas
  · rw [hkey]
    exact (h.nodup key).filter _
  · rw [hkey]
    simp [howner]
  · intro a ha
    rw [hkey]
    simp [ha]

end

end LoginServer.Verified.ReverseIndex
