import Mathlib.Data.List.Basic

/-!
# Byte-addressed memory

A `Memory` gives every index a byte.  `read` and `write` move whole byte
strings, as `memcpy` does, and every lemma below is a frame fact: what a
`write` changes, and what it leaves alone.  Bounds are not part of a
`Memory`; a client that has an array of a fixed size records the ranges it
touches and bounds those.

## Main results

* `read_write_self`, `read_write_disjoint` — the two read-over-write laws.
* `read_append` — a range splits at any point.
* `read_unshift` — what is seen from an address.
* `read_congr` — a read depends on the bytes of its range only.
-/

namespace LoginServer.Verified.ByteMemory

/-- A byte at every index. -/
abbrev Memory := Nat → UInt8

/-- The `n` bytes from `lo` on. -/
def read (mem : Memory) (lo : Nat) : Nat → List UInt8
  | 0 => []
  | n + 1 => mem lo :: read mem (lo + 1) n

/-- The memory with `bytes` laid down from `lo` on. -/
def write (mem : Memory) (lo : Nat) (bytes : List UInt8) : Memory := fun i =>
  if lo ≤ i ∧ i < lo + bytes.length then bytes.getD (i - lo) 0 else mem i

@[simp] theorem length_read (mem : Memory) (lo n : Nat) :
    (read mem lo n).length = n := by
  induction n generalizing lo with
  | zero => rfl
  | succ n ih => simp [read, ih]

@[simp] theorem read_zero (mem : Memory) (lo : Nat) : read mem lo 0 = [] := rfl

/-- A read depends on the bytes of its own range only. -/
theorem read_congr {mem mem' : Memory} {lo n : Nat}
    (h : ∀ i, lo ≤ i → i < lo + n → mem i = mem' i) :
    read mem lo n = read mem' lo n := by
  induction n generalizing lo with
  | zero => rfl
  | succ n ih =>
      rw [read, read, h lo (by omega) (by omega),
        ih (fun i hlo hhi => h i (by omega) (by omega))]

theorem read_append (mem : Memory) (lo m n : Nat) :
    read mem lo (m + n) = read mem lo m ++ read mem (lo + m) n := by
  induction m generalizing lo with
  | zero => simp
  | succ m ih =>
      rw [show m + 1 + n = (m + n) + 1 by omega, read, read, ih (lo + 1),
        List.cons_append, show lo + 1 + m = lo + (m + 1) by omega]

/-- A sub-range of a read. -/
theorem read_sub (mem : Memory) (lo : Nat) {n k m : Nat} (h : k + m ≤ n) :
    read mem (lo + k) m = ((read mem lo n).drop k).take m := by
  have hn : n = k + (m + (n - k - m)) := by omega
  have hdrop : (read mem lo n).drop k =
      read mem (lo + k) m ++ read mem (lo + k + m) (n - k - m) := by
    rw [hn, read_append, read_append,
      List.drop_left' (by simp), show k + (m + (n - k - m)) - k - m =
        n - k - m by omega]
  rw [hdrop, List.take_left' (by simp)]

/-! ## Read over write -/

theorem write_of_lt {mem : Memory} {lo i : Nat} {bytes : List UInt8}
    (h : i < lo) : write mem lo bytes i = mem i := by
  rw [write, if_neg (by omega)]

theorem write_of_ge {mem : Memory} {lo i : Nat} {bytes : List UInt8}
    (h : lo + bytes.length ≤ i) : write mem lo bytes i = mem i := by
  rw [write, if_neg (by omega)]

theorem write_of_mem {mem : Memory} {lo i : Nat} {bytes : List UInt8}
    (hlo : lo ≤ i) (hhi : i < lo + bytes.length) :
    write mem lo bytes i = bytes.getD (i - lo) 0 := by
  rw [write, if_pos ⟨hlo, hhi⟩]

@[simp] theorem write_nil (mem : Memory) (lo : Nat) : write mem lo [] = mem := by
  funext i
  rw [write, if_neg (by simp only [List.length_nil]; omega)]

/-- Writing a nonempty string writes its head and then its tail. -/
theorem write_cons (mem : Memory) (lo : Nat) (b : UInt8) (bs : List UInt8) :
    write mem lo (b :: bs) = write (write mem lo [b]) (lo + 1) bs := by
  funext i
  by_cases h0 : i = lo
  · subst h0
    rw [write_of_mem (by omega) (by simp), write_of_lt (by omega),
      write_of_mem (by omega) (by simp)]
    simp
  by_cases hin : lo + 1 ≤ i ∧ i < lo + 1 + bs.length
  · rw [write_of_mem (by omega) (by simp only [List.length_cons]; omega),
      write_of_mem hin.1 hin.2, show i - lo = (i - (lo + 1)) + 1 by omega,
      List.getD_cons_succ]
  · rw [write, if_neg (by simp only [List.length_cons]; omega), write,
      if_neg hin, write,
      if_neg (by simp only [List.length_cons, List.length_nil]; omega)]

/-- What was just written is read back. -/
@[simp] theorem read_write_self (mem : Memory) (lo : Nat) (bytes : List UInt8) :
    read (write mem lo bytes) lo bytes.length = bytes := by
  induction bytes generalizing mem lo with
  | nil => rfl
  | cons b bs ih =>
      have hhead : write mem lo (b :: bs) lo = b := by
        rw [write_of_mem (by omega) (by simp)]
        simp
      rw [List.length_cons, read, hhead, write_cons, ih]

/-- Read-back with the length given separately. -/
theorem read_write_of_length {mem : Memory} {lo n : Nat} {bytes : List UInt8}
    (h : bytes.length = n) : read (write mem lo bytes) lo n = bytes := by
  rw [← h, read_write_self]

/-- A write leaves every disjoint range alone. -/
theorem read_write_disjoint {mem : Memory} {lo n at_ : Nat}
    {bytes : List UInt8} (h : lo + n ≤ at_ ∨ at_ + bytes.length ≤ lo) :
    read (write mem at_ bytes) lo n = read mem lo n := by
  apply read_congr
  intro i hlo hhi
  rcases h with h | h
  · exact write_of_lt (by omega)
  · exact write_of_ge (by omega)

/-- Laying two adjacent strings down is laying their concatenation down. -/
theorem write_append (mem : Memory) (lo : Nat) (xs ys : List UInt8) :
    write mem lo (xs ++ ys) = write (write mem lo xs) (lo + xs.length) ys := by
  induction xs generalizing mem lo with
  | nil => simp
  | cons x xs ih =>
      rw [List.cons_append, write_cons, ih, ← write_cons,
        List.length_cons, show lo + 1 + xs.length = lo + (xs.length + 1) by omega]

theorem getD_read (mem : Memory) {lo n i : Nat} (h : i < n) :
    (read mem lo n).getD i 0 = mem (lo + i) := by
  induction n generalizing lo i with
  | zero => omega
  | succ n ih =>
      cases i with
      | zero => rfl
      | succ i =>
          rw [read, List.getD_cons_succ, ih (by omega)]
          congr 1
          omega

/-- A range copied from another memory. -/
theorem write_read_of_mem {mem from_ : Memory} {lo n i : Nat}
    (hlo : lo ≤ i) (hhi : i < lo + n) :
    write mem lo (read from_ lo n) i = from_ i := by
  rw [write_of_mem hlo (by rw [length_read]; exact hhi), getD_read _ (by omega),
    Nat.add_sub_cancel' hlo]

/-! ## A part of a memory -/

/-- The memory as it is seen from an address. -/
def shift (mem : Memory) (base : Nat) : Memory := fun i => mem (base + i)

/-- The memory after what is seen from an address has become `inner`. -/
def unshift (mem inner : Memory) (base : Nat) : Memory := fun a =>
  if base ≤ a then inner (a - base) else mem a

theorem read_unshift (mem inner : Memory) (base lo n : Nat) :
    read (unshift mem inner base) (base + lo) n = read inner lo n := by
  induction n generalizing lo with
  | zero => rfl
  | succ n ih =>
      have hhead : unshift mem inner base (base + lo) = inner lo := by
        rw [unshift, if_pos (Nat.le_add_right base lo), Nat.add_sub_cancel_left]
      rw [read, read, hhead, Nat.add_assoc, ih]

end LoginServer.Verified.ByteMemory
