import Mathlib.Data.List.Perm.Basic

/-!
# Scanning a container without an order

A loop over a hash set that returns at the first match returns whatever the
order of the set puts first.  What it answers whatever the order can be said
without one.

## Main results

* `forall_scan_eq_none_iff`, `forall_scan_eq_some_iff` — the answers that do
  not depend on the order.
-/

namespace LoginServer.Verified.UnorderedScan

variable {α β : Type} [DecidableEq α] (p : α → Bool) (f : α → Option β)

/-- The first match, and what it holds. -/
def scan (order : List α) : Option β := (order.find? p).bind f

/-- Any match comes first in some order. -/
theorem exists_perm_find {xs : List α} {x : α} (hx : x ∈ xs) (hp : p x = true) :
    ∃ order : List α, order.Perm xs ∧ order.find? p = some x :=
  ⟨x :: xs.erase x, (List.perm_cons_erase hx).symm, List.find?_cons_of_pos hp⟩

theorem forall_scan_eq_none_iff (xs : List α) :
    (∀ order : List α, order.Perm xs → scan p f order = none) ↔
      ∀ x ∈ xs, p x = true → f x = none := by
  constructor
  · intro h x hx hp
    obtain ⟨order, hperm, hfind⟩ := exists_perm_find p hx hp
    have hscan := h order hperm
    rwa [scan, hfind] at hscan
  · intro h order hperm
    unfold scan
    cases hfind : order.find? p with
    | none => rfl
    | some x =>
        have hx : x ∈ xs := hperm.mem_iff.mp (List.mem_of_find?_eq_some hfind)
        exact h x hx (List.find?_some hfind)

theorem forall_scan_eq_some_iff (xs : List α) (y : β) :
    (∀ order : List α, order.Perm xs → scan p f order = some y) ↔
      (∃ x ∈ xs, p x = true) ∧ ∀ x ∈ xs, p x = true → f x = some y := by
  constructor
  · intro h
    constructor
    · have hscan := h xs (List.Perm.refl xs)
      obtain ⟨x, hfind, -⟩ := Option.bind_eq_some_iff.mp hscan
      exact ⟨x, List.mem_of_find?_eq_some hfind, List.find?_some hfind⟩
    · intro x hx hp
      obtain ⟨order, hperm, hfind⟩ := exists_perm_find p hx hp
      have hscan := h order hperm
      rwa [scan, hfind] at hscan
  · rintro ⟨⟨x, hx, hp⟩, h⟩ order hperm
    obtain ⟨x', hfind⟩ := Option.isSome_iff_exists.mp
      (List.find?_isSome.mpr ⟨x, hperm.mem_iff.mpr hx, hp⟩)
    unfold scan
    rw [hfind]
    exact h x' (hperm.mem_iff.mp (List.mem_of_find?_eq_some hfind)) (List.find?_some hfind)

end LoginServer.Verified.UnorderedScan
