import Mathlib.Data.Nat.Basic
import Mathlib.Data.List.Basic

/-!
# Running sums with deferred reduction

A checksum of two sums adds every element to the first and the first to the
second, modulo `m`.  Reducing at every step is the definition; reducing once
after many steps gives the same residues, and is possible in a word of fixed
width as long as the unreduced sums stay below its bound.  `reach` is the
largest the second sum can get in `n` steps of elements up to `c`.

## Main results

* `runningSums_mod` — reducing late is reducing at every step.
* `reach_mono`, `two_mul_reach` — the bound grows with its arguments, and has a
  closed form.
-/

namespace LoginServer.Verified.DeferredReduction

/-- Both sums over `xs`, from `a` and `b`, without a reduction. -/
def runningSums : List Nat → Nat → Nat → Nat × Nat
  | [], a, b => (a, b)
  | x :: xs, a, b => runningSums xs (a + x) (b + (a + x))

/-- Both sums over `xs`, reduced modulo `m` at every element. -/
def reducedSums (m : Nat) : List Nat → Nat → Nat → Nat × Nat
  | [], a, b => (a, b)
  | x :: xs, a, b => reducedSums m xs ((a + x) % m) ((b + (a + x) % m) % m)

/-- The second sum after `n` steps whose elements are all `c`. -/
def reach (c : Nat) : Nat → Nat → Nat → Nat
  | 0, _, b => b
  | n + 1, a, b => reach c n (a + c) (b + (a + c))

theorem reducedSums_append (m : Nat) (xs ys : List Nat) (a b : Nat) :
    reducedSums m (xs ++ ys) a b =
      reducedSums m ys (reducedSums m xs a b).1 (reducedSums m xs a b).2 := by
  induction xs generalizing a b with
  | nil => rfl
  | cons x xs ih => exact ih _ _

/-- Reducing the two sums late is reducing them at every element. -/
theorem runningSums_mod (m : Nat) (xs : List Nat) (a b : Nat) :
    ((runningSums xs a b).1 % m, (runningSums xs a b).2 % m) =
      reducedSums m xs (a % m) (b % m) := by
  induction xs generalizing a b with
  | nil => rfl
  | cons x xs ih =>
      have hfst : (a % m + x) % m = (a + x) % m := Nat.mod_add_mod a m x
      have hsnd : (b % m + (a + x) % m) % m = (b + (a + x)) % m :=
        (Nat.add_mod b (a + x) m).symm
      rw [runningSums, reducedSums, ih, hfst, hsnd]

/-- Reduced sums are residues again. -/
theorem reducedSums_lt {m : Nat} (hm : 0 < m) (xs : List Nat) {a b : Nat}
    (ha : a < m) (hb : b < m) :
    (reducedSums m xs a b).1 < m ∧ (reducedSums m xs a b).2 < m := by
  induction xs generalizing a b with
  | nil => exact ⟨ha, hb⟩
  | cons x xs ih => exact ih (Nat.mod_lt _ hm) (Nat.mod_lt _ hm)

/-! ## The bound -/

theorem le_reach (c n a b : Nat) : b ≤ reach c n a b := by
  induction n generalizing a b with
  | zero => exact Nat.le_refl b
  | succ n ih => exact Nat.le_trans (Nat.le_add_right _ _) (ih (a + c) (b + (a + c)))

theorem reach_mono {c n n' a a' b b' : Nat} (hn : n ≤ n') (ha : a ≤ a') (hb : b ≤ b') :
    reach c n a b ≤ reach c n' a' b' := by
  induction n generalizing n' a a' b b' with
  | zero => exact Nat.le_trans hb (le_reach c n' a' b')
  | succ n ih =>
      cases n' with
      | zero => omega
      | succ n' =>
          show reach c n (a + c) (b + (a + c)) ≤ reach c n' (a' + c) (b' + (a' + c))
          exact ih (by omega) (by omega) (by omega)

/-- The growth is linear in `a` and quadratic in `n`. -/
theorem two_mul_reach (c n a b : Nat) :
    2 * reach c n a b = 2 * b + 2 * n * a + c * n * (n + 1) := by
  induction n generalizing a b with
  | zero => simp [reach]
  | succ n ih =>
      rw [reach, ih]
      grind

end LoginServer.Verified.DeferredReduction
