import Mathlib.Data.Fintype.Card
import Mathlib.Logic.Relation
import Mathlib.Logic.Function.Basic

/-!
# Walks that mark the path they are on

A walk along the edges of a graph marks every node it enters, takes the mark
away when it leaves the node, and stops at a node that is marked already.  On
a finite graph such a walk cannot go deep for ever, and the nodes it stops at
are on a cycle.

## Main results

* `free_mark` — entering a node uses one of finitely many.
* `LeadsTo.mark` — the marked nodes are the ones that led here.
* `LeadsTo.cycle` — a marked node is on a cycle.
-/

namespace LoginServer.Verified.PathMarks

variable {ρ : Type} {path : ρ → Bool} {r r' : ρ} {edge : ρ → ρ → Prop}

/-- How many nodes have no mark. -/
def free [Fintype ρ] (path : ρ → Bool) : Nat :=
  (Finset.univ.filter fun r => path r = false).card

theorem free_le [Fintype ρ] (path : ρ → Bool) : free path ≤ Fintype.card ρ :=
  Finset.card_le_univ _

/-- From every marked node there is a way to `r`. -/
def LeadsTo (edge : ρ → ρ → Prop) (path : ρ → Bool) (r : ρ) : Prop :=
  ∀ p, path p = true → Relation.TransGen edge p r

theorem leadsTo_start : LeadsTo edge (fun _ => false) r := fun _ h => nomatch h

theorem LeadsTo.cycle (h : LeadsTo edge path r) (hmarked : path r = true) :
    Relation.TransGen edge r r := h r hmarked

/-- Where every way ends there is no cycle. -/
theorem not_cycle_of_acc (h : Acc (fun r' r => edge r r') r) : ¬ Relation.TransGen edge r r := by
  induction h with
  | intro r _ ih =>
      intro hcycle
      obtain ⟨r', hedge, hback⟩ := Relation.TransGen.head'_iff.mp hcycle
      exact ih r' hedge (Relation.TransGen.tail' hback hedge)

section
variable [DecidableEq ρ]

def mark (path : ρ → Bool) (r : ρ) : ρ → Bool := Function.update path r true

def unmark (path : ρ → Bool) (r : ρ) : ρ → Bool := Function.update path r false

theorem unmark_mark (h : path r = false) : unmark (mark path r) r = path := by
  rw [unmark, mark, Function.update_idem, ← h, Function.update_eq_self]

theorem mark_eq_true_iff {p : ρ} : mark path r p = true ↔ p = r ∨ path p = true := by
  by_cases hp : p = r <;> simp [mark, hp]

theorem free_mark [Fintype ρ] (h : path r = false) : free (mark path r) < free path := by
  apply Finset.card_lt_card
  rw [Finset.ssubset_iff_of_subset]
  · refine ⟨r, by simp [h], ?_⟩
    simp [mark_eq_true_iff.mpr (Or.inl rfl)]
  · intro p hp
    have hfree : mark path r p = false := (Finset.mem_filter.mp hp).2
    have hpath : ¬ path p = true := by
      intro hmarked
      rw [mark_eq_true_iff.mpr (Or.inr hmarked)] at hfree
      cases hfree
    simpa using hpath

theorem LeadsTo.mark (h : LeadsTo edge path r) (hedge : edge r r') :
    LeadsTo edge (mark path r) r' := by
  intro p hp
  rcases mark_eq_true_iff.mp hp with rfl | hp
  · exact Relation.TransGen.single hedge
  · exact (h p hp).tail hedge

end

end LoginServer.Verified.PathMarks
