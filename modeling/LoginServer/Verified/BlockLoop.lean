import LoginServer.Verified.ByteMemory

/-!
# In-place block loops

A block cipher in its simplest mode walks a buffer block by block and
replaces each block by its image.  `blockLoop` is that walk over a
`Memory`; `mapBlocks` is what it computes on the byte string it covers.
`blockLoop_eq_write` connects the two, so a client reasons about byte
strings and meets the loop once.

## Main results

* `blockLoop_eq_write` — the loop overwrites its range with the mapped
  blocks and nothing else.
* `mapBlocks_inverse` — mutually inverse block functions give mutually
  inverse maps.
* `blockLoop_inverse` — and loops that undo each other in place.
* `blockLoop_outside` — a byte outside the range is as it was.
-/

namespace LoginServer.Verified.BlockLoop

open LoginServer.Verified.ByteMemory

/-- Replace `count` consecutive blocks of `size` bytes, from `lo` on, each by
its image under `f`. -/
def blockLoop (size : Nat) (f : List UInt8 → List UInt8) :
    Nat → Nat → Memory → Memory
  | 0, _, mem => mem
  | count + 1, lo, mem =>
      blockLoop size f count (lo + size) (write mem lo (f (read mem lo size)))

/-- The image of a byte string, block by block. -/
def mapBlocks (size : Nat) (f : List UInt8 → List UInt8) :
    Nat → List UInt8 → List UInt8
  | 0, _ => []
  | count + 1, bytes =>
      f (bytes.take size) ++ mapBlocks size f count (bytes.drop size)

/-- A block function that keeps the block length. -/
def KeepsLength (size : Nat) (f : List UInt8 → List UInt8) : Prop :=
  ∀ block, block.length = size → (f block).length = size

/-- The first block, and the rest. -/
theorem length_take_drop {size count : Nat} {bytes : List UInt8}
    (h : bytes.length = size * (count + 1)) :
    (bytes.take size).length = size ∧ (bytes.drop size).length = size * count := by
  rw [Nat.mul_succ] at h
  constructor
  · rw [List.length_take]
    omega
  · rw [List.length_drop]
    omega

theorem length_mapBlocks {size : Nat} {f : List UInt8 → List UInt8}
    (hf : KeepsLength size f) :
    ∀ (count : Nat) (bytes : List UInt8), bytes.length = size * count →
      (mapBlocks size f count bytes).length = size * count := by
  intro count
  induction count with
  | zero => intro bytes _; rfl
  | succ count ih =>
      intro bytes hlen
      obtain ⟨htake, hdrop⟩ := length_take_drop hlen
      rw [mapBlocks, List.length_append, hf _ htake, ih _ hdrop, Nat.mul_succ]
      omega

/-- The loop overwrites its range with the mapped blocks, and nothing else. -/
theorem blockLoop_eq_write {size : Nat} {f : List UInt8 → List UInt8}
    (hf : KeepsLength size f) :
    ∀ (count lo : Nat) (mem : Memory),
      blockLoop size f count lo mem =
        write mem lo (mapBlocks size f count (read mem lo (size * count))) := by
  intro count
  induction count with
  | zero => intro lo mem; simp [blockLoop, mapBlocks]
  | succ count ih =>
      intro lo mem
      have hblock : (f (read mem lo size)).length = size := hf _ (by simp)
      have hsplit : read mem lo (size * (count + 1)) =
          read mem lo size ++ read mem (lo + size) (size * count) := by
        rw [Nat.mul_succ, Nat.add_comm, read_append]
      -- the rest of the range is not yet touched when the loop gets there
      have hrest : read (write mem lo (f (read mem lo size))) (lo + size)
          (size * count) = read mem (lo + size) (size * count) :=
        read_write_disjoint (Or.inr (by omega))
      rw [blockLoop, ih, hrest, hsplit, mapBlocks,
        List.take_left' (by simp), List.drop_left' (by simp), write_append,
        hblock]

/-- Inverse block functions give inverse maps. -/
theorem mapBlocks_inverse {size : Nat} {f g : List UInt8 → List UInt8}
    (hf : KeepsLength size f)
    (hgf : ∀ block, block.length = size → g (f block) = block) :
    ∀ (count : Nat) (bytes : List UInt8), bytes.length = size * count →
      mapBlocks size g count (mapBlocks size f count bytes) = bytes := by
  intro count
  induction count with
  | zero =>
      intro bytes hlen
      simpa [mapBlocks] using (List.length_eq_zero_iff.mp (by simpa using hlen)).symm
  | succ count ih =>
      intro bytes hlen
      obtain ⟨htake, hdrop⟩ := length_take_drop hlen
      have hblock : (f (bytes.take size)).length = size := hf _ htake
      rw [mapBlocks, mapBlocks, List.take_left' hblock, List.drop_left' hblock,
        hgf _ htake, ih _ hdrop, List.take_append_drop]

/-! ## The loop in place -/

/-- The range the loop covers has its images under the block map. -/
theorem read_blockLoop {size : Nat} {f : List UInt8 → List UInt8}
    (hf : KeepsLength size f) (count lo : Nat) (mem : Memory) :
    read (blockLoop size f count lo mem) lo (size * count) =
      mapBlocks size f count (read mem lo (size * count)) := by
  rw [blockLoop_eq_write hf]
  exact read_write_of_length (length_mapBlocks hf count _ (length_read _ _ _))

theorem blockLoop_outside {size : Nat} {f : List UInt8 → List UInt8}
    (hf : KeepsLength size f) (count lo : Nat) (mem : Memory) {i : Nat}
    (h : i < lo ∨ lo + size * count ≤ i) :
    blockLoop size f count lo mem i = mem i := by
  have hlen : (mapBlocks size f count (read mem lo (size * count))).length =
      size * count := length_mapBlocks hf count _ (length_read _ _ _)
  rw [blockLoop_eq_write hf]
  rcases h with h | h
  · exact write_of_lt h
  · exact write_of_ge (by omega)

/-- A loop over inverse blocks undoes the loop before it. -/
theorem blockLoop_inverse {size : Nat} {f g : List UInt8 → List UInt8}
    (hf : KeepsLength size f) (hg : KeepsLength size g)
    (hgf : ∀ block, block.length = size → g (f block) = block)
    (count lo : Nat) (mem : Memory) :
    blockLoop size g count lo (blockLoop size f count lo mem) = mem := by
  have hbytes : mapBlocks size g count
      (read (blockLoop size f count lo mem) lo (size * count)) =
        read mem lo (size * count) := by
    rw [read_blockLoop hf]
    exact mapBlocks_inverse hf hgf count _ (length_read _ _ _)
  funext i
  by_cases hin : lo ≤ i ∧ i < lo + size * count
  · rw [blockLoop_eq_write hg, hbytes]
    exact write_read_of_mem hin.1 hin.2
  · have hout : i < lo ∨ lo + size * count ≤ i := by omega
    rw [blockLoop_outside hg _ _ _ hout, blockLoop_outside hf _ _ _ hout]

end LoginServer.Verified.BlockLoop
