import Mathlib.Data.List.Basic
import Mathlib.Data.List.Induction

/-!
# Iterated block hashes

A hash of this kind folds a compression function over the blocks of its
input.  An implementation that is fed one element at a time keeps the current
state and the block it is filling, and compresses when the block is full.
After any input the two agree: the state is the fold over the full blocks and
the buffer is what is left.

## Main results

* `foldBlocks_append` — the fold over whole blocks and a rest.
* `absorbed_foldl` — what one-by-one absorption leaves behind.
-/

namespace LoginServer.Verified.BlockHash

variable {σ β : Type}

/-- Fold `compress` over the first `count` blocks of `size` elements. -/
def foldBlocks (size : Nat) (compress : σ → List β → σ) : Nat → σ → List β → σ
  | 0, h, _ => h
  | count + 1, h, data =>
      foldBlocks size compress count (compress h (data.take size)) (data.drop size)

theorem foldBlocks_append (size : Nat) (compress : σ → List β → σ) :
    ∀ (m n : Nat) (h : σ) (xs ys : List β), xs.length = size * m →
      foldBlocks size compress (m + n) h (xs ++ ys) =
        foldBlocks size compress n (foldBlocks size compress m h xs) ys := by
  intro m
  induction m with
  | zero =>
      intro n h xs ys hlen
      have hnil : xs = [] := List.length_eq_zero_iff.mp (by simpa using hlen)
      subst hnil
      rw [Nat.zero_add]
      rfl
  | succ m ih =>
      intro n h xs ys hlen
      rw [Nat.mul_succ] at hlen
      have htake : (xs ++ ys).take size = xs.take size :=
        List.take_append_of_le_length (by omega)
      have hdrop : (xs ++ ys).drop size = xs.drop size ++ ys :=
        List.drop_append_of_le_length (by omega)
      have hrest : (xs.drop size).length = size * m := by
        rw [List.length_drop]
        omega
      rw [Nat.succ_add, foldBlocks, htake, hdrop, ih n _ _ _ hrest, foldBlocks]

theorem foldBlocks_one (size : Nat) (compress : σ → List β → σ) (h : σ) {block : List β}
    (hblock : block.length = size) :
    foldBlocks size compress 1 h block = compress h block := by
  rw [foldBlocks, foldBlocks, List.take_of_length_le (Nat.le_of_eq hblock)]

/-- A last single block. -/
theorem foldBlocks_snoc (size : Nat) (compress : σ → List β → σ) {m : Nat} (h : σ)
    {xs block : List β} (hlen : xs.length = size * m) (hblock : block.length = size) :
    foldBlocks size compress (m + 1) h (xs ++ block) =
      compress (foldBlocks size compress m h xs) block := by
  rw [foldBlocks_append size compress m 1 h xs block hlen,
    foldBlocks_one size compress _ hblock]

/-! ## One element at a time -/

/-- The state of the hash and the block that is being filled. -/
structure Absorber (σ β : Type) where
  state : σ
  buffer : List β

/-- Take one element in, and compress if it fills the block. -/
def Absorber.push (size : Nat) (compress : σ → List β → σ) (s : Absorber σ β) (x : β) :
    Absorber σ β :=
  if (s.buffer ++ [x]).length = size then ⟨compress s.state (s.buffer ++ [x]), []⟩
  else ⟨s.state, s.buffer ++ [x]⟩

/-- What has been taken in: `data` is full blocks, folded into the state, and
the buffer. -/
structure Absorbed (size : Nat) (compress : σ → List β → σ) (h : σ) (data : List β)
    (s : Absorber σ β) : Prop where
  split : ∃ blocks : List β, data = blocks ++ s.buffer ∧
    blocks.length = size * (blocks.length / size) ∧
    s.state = foldBlocks size compress (blocks.length / size) h blocks
  partial_ : s.buffer.length < size

theorem absorbed_push {size : Nat} {compress : σ → List β → σ} {h : σ}
    {data : List β} {s : Absorber σ β} (hs : Absorbed size compress h data s) (x : β) :
    Absorbed size compress h (data ++ [x]) (s.push size compress x) := by
  obtain ⟨blocks, hdata, hlen, hstate⟩ := hs.split
  have hsize : 0 < size := Nat.lt_of_le_of_lt (Nat.zero_le _) hs.partial_
  have hbuffer : (s.buffer ++ [x]).length = s.buffer.length + 1 := by simp
  by_cases hfull : (s.buffer ++ [x]).length = size
  · rw [Absorber.push, if_pos hfull]
    have hcount : (blocks ++ (s.buffer ++ [x])).length / size =
        blocks.length / size + 1 := by
      rw [List.length_append, hfull, Nat.add_div_right _ hsize]
    refine ⟨⟨blocks ++ (s.buffer ++ [x]), ?_, ?_, ?_⟩, hsize⟩
    · rw [hdata, List.append_nil, List.append_assoc]
    · rw [hcount, Nat.mul_succ, ← hlen, List.length_append, hfull]
    · rw [hcount, foldBlocks_snoc size compress h hlen hfull, ← hstate]
  · rw [Absorber.push, if_neg hfull]
    refine ⟨⟨blocks, ?_, hlen, hstate⟩, ?_⟩
    · rw [hdata, List.append_assoc]
    · have := hs.partial_
      show (s.buffer ++ [x]).length < size
      omega

/-- The invariant holds after every input; the induction takes the last
element off. -/
theorem absorbed_foldl {size : Nat} (hsize : 0 < size) (compress : σ → List β → σ)
    (h : σ) (data : List β) :
    Absorbed size compress h data
      (data.foldl (Absorber.push size compress) ⟨h, []⟩) := by
  induction data using List.reverseRecOn with
  | nil => exact ⟨⟨[], rfl, by simp, by simp [foldBlocks]⟩, hsize⟩
  | append_singleton data x ih =>
      rw [List.foldl_append]
      exact absorbed_push ih x

end LoginServer.Verified.BlockHash
