import Mathlib.Algebra.Group.Int.Defs
import Mathlib.Algebra.GroupWithZero.Nat
import Mathlib.Data.Nat.Basic

/-!
# Naturals in a floating-point number

A floating-point number with `p` significant bits holds a natural number below
`2 ^ p` as it is.  A larger one is rounded to the nearest multiple of a power
of two, to the even multiple where two are equally near.

## Main results

* `nearestEven_of_lt` — small numbers are exact.
* `two_pow_le_nearestEven` — rounding does not cross a power of two downwards.
-/

namespace LoginServer.Verified.Significand

/-- The distance of the representable neighbours of `n`. -/
def spacing (p n : Nat) : Nat := 2 ^ (n.log2 + 1 - p)

/-- `n` rounded to `p` significant bits, ties to even. -/
def nearestEven (p n : Nat) : Nat :=
  let unit := spacing p n
  let down := n / unit
  let rest := n % unit
  if 2 * rest < unit ∨ (2 * rest = unit ∧ down % 2 = 0) then down * unit
  else (down + 1) * unit

theorem nearestEven_of_lt {p n : Nat} (hp : 0 < p) (h : n < 2 ^ p) : nearestEven p n = n := by
  have hlog : n.log2 + 1 - p = 0 := by
    by_cases hzero : n = 0
    · subst hzero
      rw [Nat.log2_zero]
      omega
    · have := (Nat.log2_lt hzero).mpr h
      omega
  have hunit : spacing p n = 1 := by rw [spacing, hlog, Nat.pow_zero]
  simp only [nearestEven, hunit, Nat.mod_one, Nat.div_one, Nat.mul_one]
  rw [if_pos (Or.inl (by omega))]

theorem div_mul_le_nearestEven (p n : Nat) :
    n / spacing p n * spacing p n ≤ nearestEven p n := by
  unfold nearestEven
  dsimp only
  split
  · exact Nat.le_refl _
  · exact Nat.mul_le_mul_right _ (Nat.le_succ _)

/-- A power of two below `n` is a multiple of the spacing, so `n` is not
rounded below it. -/
theorem two_pow_le_nearestEven {p n k : Nat} (hp : 0 < p) (h : 2 ^ k ≤ n) :
    2 ^ k ≤ nearestEven p n := by
  have hn : n ≠ 0 := by
    have := Nat.two_pow_pos k
    omega
  have hk : k ≤ n.log2 := (Nat.le_log2 hn).mpr h
  have hspacing : n.log2 + 1 - p ≤ n.log2 := by omega
  obtain ⟨d, hd⟩ := Nat.pow_dvd_pow 2 hspacing
  have hpow : 2 ^ n.log2 = d * spacing p n := by
    rw [spacing, Nat.mul_comm]
    exact hd
  have hpos : 0 < spacing p n := Nat.two_pow_pos _
  have hdown : d ≤ n / spacing p n := by
    rw [Nat.le_div_iff_mul_le hpos, ← hpow]
    exact Nat.log2_self_le hn
  calc 2 ^ k ≤ 2 ^ n.log2 := Nat.pow_le_pow_right (by omega) hk
    _ = d * spacing p n := hpow
    _ ≤ n / spacing p n * spacing p n := Nat.mul_le_mul_right _ hdown
    _ ≤ nearestEven p n := div_mul_le_nearestEven p n

end LoginServer.Verified.Significand
