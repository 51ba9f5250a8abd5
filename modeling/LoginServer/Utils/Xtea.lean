import LoginServer.Network.OutputMessage
import LoginServer.Verified.BlockLoop
import Mathlib.Logic.Function.Iterate

/-!
# `XTEA::encrypt` and `XTEA::decrypt`

The cipher works on eight-byte blocks, two little-endian words each, in 32
rounds with a running key-schedule sum.  A round is modelled on the triple
`(v0, v1, sum)`: with the sum in the state every decryption round undoes an
encryption round outright, and 32 of them undo 32.

## Main results

* `decryptBlock_encryptBlock` — the two block functions are inverse.
* `length_encryptBlock`, `length_decryptBlock` — both keep the block length.
-/

namespace LoginServer.Utils.Xtea

open LoginServer.Network
open LoginServer.Network.NetworkMessage
open LoginServer.Verified
open LoginServer.Verified.ByteMemory
open LoginServer.Verified.BlockLoop

/-- `XTEA::m_delta`. -/
def delta : BitVec 32 := 0x61C88647

/-- `uint32_t m_key[4]`. -/
abbrev Key := Vector (BitVec 32) 4

private theorem and_three_lt (i : BitVec 32) : (i &&& 3).toNat < 4 := by
  have h : (i &&& 3).toNat ≤ 3 := by
    rw [BitVec.toNat_and]
    exact Nat.and_le_right
  omega

/-- `k[i & 3]`. -/
def keyWord (k : Key) (i : BitVec 32) : BitVec 32 :=
  k.get ⟨(i &&& 3).toNat, and_three_lt i⟩

/-- The state of the round loop. -/
structure Round where
  v0 : BitVec 32
  v1 : BitVec 32
  sum : BitVec 32
  deriving DecidableEq, Repr

/-- `(v << 4 ^ v >> 5) + v`. -/
def mix (v : BitVec 32) : BitVec 32 := ((v <<< 4) ^^^ (v >>> 5)) + v

/-- The body of the loop in `encrypt`. -/
def encryptRound (k : Key) (r : Round) : Round :=
  let v0 := r.v0 + (mix r.v1 ^^^ (r.sum + keyWord k r.sum))
  let sum := r.sum - delta
  let v1 := r.v1 + (mix v0 ^^^ (sum + keyWord k (sum >>> 11)))
  ⟨v0, v1, sum⟩

/-- The body of the loop in `decrypt`. -/
def decryptRound (k : Key) (r : Round) : Round :=
  let v1 := r.v1 - (mix r.v0 ^^^ (r.sum + keyWord k (r.sum >>> 11)))
  let sum := r.sum + delta
  let v0 := r.v0 - (mix v1 ^^^ (sum + keyWord k sum))
  ⟨v0, v1, sum⟩

theorem decryptRound_encryptRound (k : Key) :
    Function.LeftInverse (decryptRound k) (encryptRound k) := by
  intro r
  simp only [decryptRound, encryptRound, BitVec.add_sub_cancel,
    BitVec.sub_add_cancel]

/-- `for (int32_t i = 32; --i >= 0;)` runs its body 32 times. -/
def rounds : Nat := 32

def word (bytes : Bytes) : BitVec 32 := Width.decode .u32 bytes

/-- One iteration of the block loop of `encrypt`. -/
def encryptBlock (k : Key) (block : Bytes) : Bytes :=
  let r := (encryptRound k)^[rounds] ⟨word (block.take 4), word (block.drop 4), 0⟩
  Width.encode .u32 r.v0 ++ Width.encode .u32 r.v1

/-- One iteration of the block loop of `decrypt`. -/
def decryptBlock (k : Key) (block : Bytes) : Bytes :=
  let r := (decryptRound k)^[rounds]
    ⟨word (block.take 4), word (block.drop 4), 0xC6EF3720⟩
  Width.encode .u32 r.v0 ++ Width.encode .u32 r.v1

theorem length_encryptBlock (k : Key) : KeepsLength 8 (encryptBlock k) := by
  intro block _
  simp [encryptBlock, Width.bytes]

theorem length_decryptBlock (k : Key) : KeepsLength 8 (decryptBlock k) := by
  intro block _
  simp [decryptBlock, Width.bytes]

/-- The sum is never mixed with the data: it moves by a constant a round. -/
theorem sum_iterate {f : Round → Round} {d : BitVec 32} (hf : ∀ r, (f r).sum = r.sum + d)
    (r : Round) (n : Nat) : (f^[n] r).sum = r.sum + BitVec.ofNat 32 n * d := by
  induction n generalizing r with
  | zero => simp
  | succ n ih =>
      rw [Function.iterate_succ_apply, ih, hf]
      have hsucc : BitVec.ofNat 32 (n + 1) = BitVec.ofNat 32 n + 1 := by
        simp [BitVec.ofNat_add]
      rw [hsucc]
      grind

theorem sum_encryptRound (k : Key) (r : Round) : (encryptRound k r).sum = r.sum + -delta :=
  BitVec.sub_eq_add_neg r.sum delta

/-- The sum `decrypt` starts from is the one `encrypt` ends with. -/
theorem sum_after_rounds (k : Key) (r : Round) (h : r.sum = 0) :
    ((encryptRound k)^[rounds] r).sum = 0xC6EF3720 := by
  rw [sum_iterate (sum_encryptRound k), h]
  decide

theorem encode_word {bytes : Bytes} (h : bytes.length = 4) :
    Width.encode .u32 (word bytes) = bytes :=
  Width.encode_decode .u32 h

theorem word_encode (v : BitVec 32) : word (Width.encode .u32 v) = v :=
  Width.decode_encode .u32 v

theorem encode_words {block : Bytes} (h : block.length = 8) :
    Width.encode .u32 (word (block.take 4)) ++
      Width.encode .u32 (word (block.drop 4)) = block := by
  rw [encode_word (by rw [List.length_take]; omega),
    encode_word (by rw [List.length_drop]; omega), List.take_append_drop]

theorem word_take_append (v0 v1 : BitVec 32) :
    word ((Width.encode .u32 v0 ++ Width.encode .u32 v1).take 4) = v0 := by
  rw [List.take_left' (by simp), word_encode]

theorem word_drop_append (v0 v1 : BitVec 32) :
    word ((Width.encode .u32 v0 ++ Width.encode .u32 v1).drop 4) = v1 := by
  rw [List.drop_left' (by simp), word_encode]

/-- All rounds on one block, from a given sum on. -/
def onBlock (f : Round → Round) (sum : BitVec 32) (block : Bytes) : Bytes :=
  let r := f^[rounds] ⟨word (block.take 4), word (block.drop 4), sum⟩
  Width.encode .u32 r.v0 ++ Width.encode .u32 r.v1

/-- Rounds that undo others give the block back if they start from the sum the
others end with. -/
theorem onBlock_inverse {f g : Round → Round} (hinverse : Function.LeftInverse g f)
    {first last : BitVec 32} (hsum : ∀ r : Round, r.sum = first → (f^[rounds] r).sum = last)
    {block : Bytes} (h : block.length = 8) :
    onBlock g last (onBlock f first block) = block := by
  let r : Round := ⟨word (block.take 4), word (block.drop 4), first⟩
  have hinv : g^[rounds] (f^[rounds] r) = r := hinverse.iterate rounds r
  have hstart : (⟨(f^[rounds] r).v0, (f^[rounds] r).v1, last⟩ : Round) = f^[rounds] r := by
    rw [← hsum r rfl]
  simp only [onBlock, word_take_append, word_drop_append]
  rw [hstart, hinv]
  exact encode_words h

/-- Decrypting an encrypted block gives the block back. -/
theorem decryptBlock_encryptBlock (k : Key) {block : Bytes}
    (h : block.length = 8) : decryptBlock k (encryptBlock k block) = block :=
  onBlock_inverse (decryptRound_encryptRound k) (sum_after_rounds k) h

/-! ## The two entry points -/

/-- `XTEA::encrypt`.  The block loop runs while `readPos < messageLength`, so
it covers the last block also when padding was refused and the length is not
a multiple of eight. -/
def encrypt (k : Key) (m : OutputMessage) : OutputMessage :=
  let paddingBytes := m.len % 8
  let m :=
    if paddingBytes ≠ 0 then
      { m with toNetworkMessage := m.addPaddingBytes (8 - paddingBytes) }
    else m
  let messageLength := m.len
  let blocks := (messageLength + 7) / 8
  { m with
    buffer := blockLoop 8 (encryptBlock k) blocks m.start m.buffer
    accesses :=
      .write m.start (8 * blocks) :: .read m.start (8 * blocks) :: m.accesses }

/-- `XTEA::decrypt`.  `(length - 6) & 7` is taken on a signed `int`, whose
low three bits are its residue modulo eight also below zero. -/
def decrypt (k : Key) (m : NetworkMessage) : Bool × NetworkMessage :=
  if ((m.len : Int) - 6) % 8 ≠ 0 then (false, m)
  else
    let messageLength := m.len - 6
    let blocks := (messageLength + 7) / 8
    let m :=
      { m with
        buffer := blockLoop 8 (decryptBlock k) blocks m.pos m.buffer
        accesses :=
          .write m.pos (8 * blocks) :: .read m.pos (8 * blocks) :: m.accesses }
    let (innerLength, m) := m.get .u16
    if (innerLength.toNat : Int) > (m.len : Int) - 8 then (false, m)
    else (true, m.setLength innerLength.toNat)

/-- The bytes the loop of `decrypt` leaves behind. -/
def plaintext (k : Key) (m : NetworkMessage) : Bytes :=
  mapBlocks 8 (decryptBlock k) ((m.len - 6) / 8) (read m.buffer m.pos (m.len - 6))

/-- The message after the loop of `decrypt`. -/
def deciphered (k : Key) (m : NetworkMessage) : NetworkMessage :=
  { m with
    buffer := write m.buffer m.pos (plaintext k m)
    accesses :=
      .write m.pos (m.len - 6) :: .read m.pos (m.len - 6) :: m.accesses }

/-- The first two decrypted bytes. -/
def innerLength (k : Key) (m : NetworkMessage) : Nat :=
  LittleEndian.decode (read (deciphered k m).buffer m.pos 2)

/-- `decrypt` accepts the lengths of whole blocks and an inner length that
leaves room for the headers. -/
theorem decrypt_eq {k : Key} {m : NetworkMessage} (hpos : m.pos ≤ 6) :
    decrypt k m =
      if m.len % 8 ≠ 6 then (false, m)
      else if innerLength k m + 8 > m.len then (false, (deciphered k m).advance 2)
      else (true, ((deciphered k m).advance 2).setLength (innerLength k m)) := by
  unfold decrypt
  by_cases hlen : m.len % 8 = 6
  · have hblocks : 8 * ((m.len - 6 + 7) / 8) = m.len - 6 := by omega
    have hcount : (m.len - 6 + 7) / 8 = (m.len - 6) / 8 := by omega
    have hloop : blockLoop 8 (decryptBlock k) ((m.len - 6 + 7) / 8) m.pos m.buffer =
        write m.buffer m.pos (plaintext k m) := by
      rw [blockLoop_eq_write (length_decryptBlock k), hblocks, hcount]
      rfl
    have hread : (deciphered k m).Readable (Width.bytes .u16) := by
      constructor
      · show m.pos + 2 ≤ m.len + 8
        omega
      · show m.pos + 2 < NETWORKMESSAGE_MAXSIZE
        simp only [NETWORKMESSAGE_MAXSIZE]
        omega
    have hinner : (Width.decode .u16 (read (deciphered k m).buffer m.pos 2)).toNat =
        innerLength k m := by
      have hlt := LittleEndian.decode_lt (read (deciphered k m).buffer m.pos 2)
      rw [length_read] at hlt
      rw [Width.decode, BitVec.toNat_ofNat]
      exact Nat.mod_eq_of_lt hlt
    rw [if_neg (by omega), if_neg (by omega)]
    simp only [hloop, hblocks]
    change (match (deciphered k m).get .u16 with
      | (inner, m') =>
          if (inner.toNat : Int) > (m'.len : Int) - 8 then (false, m')
          else (true, m'.setLength inner.toNat)) = _
    rw [get_of_readable hread]
    simp only [advance_len]
    have hpos' : (deciphered k m).pos = m.pos := rfl
    have hlen' : (deciphered k m).len = m.len := rfl
    simp only [hpos', hlen', hinner]
    by_cases hfits : innerLength k m + 8 > m.len
    · rw [if_pos hfits, if_pos (by omega)]
    · rw [if_neg hfits, if_neg (by omega)]
  · rw [if_pos (by omega), if_pos hlen]

end LoginServer.Utils.Xtea
