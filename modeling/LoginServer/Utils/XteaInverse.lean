import LoginServer.Network.EncryptedFrame

/-!
# The cipher loops undo each other

The loop of `XTEA::decrypt` starts every block at the sum `0xC6EF3720`, the
loop of `XTEA::encrypt` at zero.  Thirty-two rounds of the one carry its sum
to the start of the other, modulo 2^32, in either direction; so the block
functions are inverse on both sides, and so are the loops over a buffer.

## Main results

* `encryptBlock_decryptBlock` — the other half of `decryptBlock_encryptBlock`.
* `encrypt_buffer`, `decrypt_buffer` — the loops are those of the entry points.
* `cipherLoops_inverse` — each loop undoes the other and stays in its range.
-/

namespace LoginServer.Utils.Xtea

open LoginServer.Network
open LoginServer.Network.NetworkMessage
open LoginServer.Verified
open LoginServer.Verified.ByteMemory
open LoginServer.Verified.BlockLoop

theorem encryptRound_decryptRound (k : Key) :
    Function.LeftInverse (encryptRound k) (decryptRound k) := by
  intro r
  simp only [decryptRound, encryptRound, BitVec.add_sub_cancel,
    BitVec.sub_add_cancel]

theorem sum_decryptRound (k : Key) (r : Round) : (decryptRound k r).sum = r.sum + delta := rfl

/-- The rounds of `decrypt` end where those of `encrypt` start. -/
theorem sum_after_decryptRounds (k : Key) (r : Round) (h : r.sum = 0xC6EF3720) :
    ((decryptRound k)^[rounds] r).sum = 0 := by
  rw [sum_iterate (sum_decryptRound k), h]
  decide

/-- Encrypting a decrypted block gives the block back. -/
theorem encryptBlock_decryptBlock (k : Key) {block : Bytes}
    (h : block.length = 8) : encryptBlock k (decryptBlock k block) = block :=
  onBlock_inverse (encryptRound_decryptRound k) (sum_after_decryptRounds k) h

/-! ## The loops -/

/-- `while (readPos < messageLength)` in `encrypt`, over the buffer that
starts at `lo`. -/
def encryptLoop (k : Key) (messageLength lo : Nat) (mem : Memory) : Memory :=
  blockLoop 8 (encryptBlock k) ((messageLength + 7) / 8) lo mem

/-- `while (readPos < messageLength)` in `decrypt`. -/
def decryptLoop (k : Key) (messageLength lo : Nat) (mem : Memory) : Memory :=
  blockLoop 8 (decryptBlock k) ((messageLength + 7) / 8) lo mem

theorem encrypt_buffer (k : Key) (m : OutputMessage) :
    (encrypt k m).buffer =
      encryptLoop k (padded m).len (padded m).start (padded m).buffer := rfl

private theorem get_buffer (m : NetworkMessage) (w : Width) :
    (m.get w).2.buffer = m.buffer := by
  by_cases h : m.Readable w.bytes
  · rw [get_of_readable h]
    rfl
  · rw [get_of_not_readable h]
    rfl

/-- What `decrypt` reads after its loop does not touch the buffer. -/
theorem decrypt_buffer (k : Key) (m : NetworkMessage)
    (h : ((m.len : Int) - 6) % 8 = 0) :
    (decrypt k m).2.buffer = decryptLoop k (m.len - 6) m.pos m.buffer := by
  unfold decrypt
  rw [if_neg (by omega)]
  dsimp only
  split
  · exact get_buffer _ .u16
  · exact get_buffer _ .u16

/-- For every key and every buffer of whole blocks: `decrypt` after `encrypt`,
`encrypt` after `decrypt`, and the bytes around the buffer. -/
theorem cipherLoops_inverse (k : Key) (blocks lo : Nat) (mem : Memory) :
    decryptLoop k (8 * blocks) lo (encryptLoop k (8 * blocks) lo mem) = mem ∧
      encryptLoop k (8 * blocks) lo (decryptLoop k (8 * blocks) lo mem) = mem ∧
      ∀ i, i < lo ∨ lo + 8 * blocks ≤ i →
        encryptLoop k (8 * blocks) lo mem i = mem i ∧
          decryptLoop k (8 * blocks) lo mem i = mem i := by
  have hcount : (8 * blocks + 7) / 8 = blocks := by omega
  have henc := length_encryptBlock k
  have hdec := length_decryptBlock k
  simp only [encryptLoop, decryptLoop, hcount]
  refine ⟨?_, ?_, ?_⟩
  · exact blockLoop_inverse henc hdec
      (fun _ h => decryptBlock_encryptBlock k h) blocks lo mem
  · exact blockLoop_inverse hdec henc
      (fun _ h => encryptBlock_decryptBlock k h) blocks lo mem
  · intro i hi
    exact ⟨blockLoop_outside henc blocks lo mem hi,
      blockLoop_outside hdec blocks lo mem hi⟩

end LoginServer.Utils.Xtea
