import Mathlib.Algebra.GroupWithZero.Nat
import LoginServer.Verified.BlockHash

/-!
# The SHA-1 standard

The digest as the standard defines it: the whole message is padded first, to
blocks of 64 bytes that end in the 64-bit length, and the compression function
is folded over the blocks.  Its 80 rounds take their word from a recurrence
and their logical function and constant from the number of the round.

## Main results

* `length_pad` — a padded message is whole blocks.
* `foldl_rounds` — a run of rounds that share their function and constant.
-/

namespace LoginServer.Verified.SecureHash

open LoginServer.Verified.BlockHash

/-- The five words of the hash value, and the working variables. -/
structure Words where
  a : BitVec 32
  b : BitVec 32
  c : BitVec 32
  d : BitVec 32
  e : BitVec 32
  deriving DecidableEq, Repr

/-- The initial hash value. -/
def initial : Words := ⟨0x67452301, 0xefcdab89, 0x98badcfe, 0x10325476, 0xc3d2e1f0⟩

def Ch (x y z : BitVec 32) : BitVec 32 := (x &&& y) ^^^ (~~~x &&& z)

def Parity (x y z : BitVec 32) : BitVec 32 := x ^^^ y ^^^ z

def Maj (x y z : BitVec 32) : BitVec 32 := (x &&& y) ^^^ (x &&& z) ^^^ (y &&& z)

/-- The logical function of round `t`. -/
def f (t : Nat) : BitVec 32 → BitVec 32 → BitVec 32 → BitVec 32 :=
  if t < 20 then Ch else if t < 40 then Parity else if t < 60 then Maj else Parity

/-- The constant of round `t`. -/
def K (t : Nat) : BitVec 32 :=
  if t < 20 then 0x5a827999 else if t < 40 then 0x6ed9eba1
  else if t < 60 then 0x8f1bbcdc else 0xca62c1d6

/-- Word `t` of a block, the highest byte first. -/
def M (block : List UInt8) (t : Nat) : BitVec 32 :=
  let byte (i : Nat) : Nat := (block.getD (4 * t + i) 0).toNat
  BitVec.ofNat 32 (byte 0 * 2 ^ 24 + byte 1 * 2 ^ 16 + byte 2 * 2 ^ 8 + byte 3)

/-- The message schedule. -/
def W (block : List UInt8) (t : Nat) : BitVec 32 :=
  if t < 16 then M block t
  else
    (W block (t - 3) ^^^ W block (t - 8) ^^^ W block (t - 14) ^^^
      W block (t - 16)).rotateLeft 1
termination_by t

/-- Round `t`. -/
def round (block : List UInt8) (s : Words) (t : Nat) : Words :=
  { a := s.a.rotateLeft 5 + f t s.b s.c s.d + s.e + K t + W block t
    b := s.a
    c := s.b.rotateLeft 30
    d := s.c
    e := s.d }

/-- The compression function. -/
def compress (H : Words) (block : List UInt8) : Words :=
  let s := (List.range 80).foldl (round block) H
  ⟨H.a + s.a, H.b + s.b, H.c + s.c, H.d + s.d, H.e + s.e⟩

/-- `count` bytes of a number, the highest one first. -/
def bigEndian : Nat → Nat → List UInt8
  | 0, _ => []
  | count + 1, n => UInt8.ofNat (n / 256 ^ count) :: bigEndian count n

/-- The zeros of the padding: up to eight bytes short of a whole block. -/
def zeros (length : Nat) : Nat := (119 - length % 64) % 64

/-- The padded message. -/
def pad (message : List UInt8) : List UInt8 :=
  message ++ 0x80 :: List.replicate (zeros message.length) 0 ++
    bigEndian 8 (8 * message.length)

/-- The hash value of a message. -/
def hash (message : List UInt8) : Words :=
  foldBlocks 64 compress ((pad message).length / 64) initial (pad message)

/-- The digest: the five words, the highest byte of each first. -/
def digest (message : List UInt8) : List UInt8 :=
  let H := hash message
  [H.a, H.b, H.c, H.d, H.e].flatMap fun word => bigEndian 4 word.toNat

/-- The lower-case hexadecimal digits. -/
def digits : List UInt8 :=
  [0x30, 0x31, 0x32, 0x33, 0x34, 0x35, 0x36, 0x37, 0x38, 0x39,
    0x61, 0x62, 0x63, 0x64, 0x65, 0x66]

/-- Two digits a byte. -/
def hex (bytes : List UInt8) : List UInt8 :=
  bytes.flatMap fun byte =>
    [digits.getD (byte.toNat / 16) 0, digits.getD (byte.toNat % 16) 0]

/-! ## The four stretches -/

theorem first_stretch {t : Nat} (h : t < 20) : f t = Ch ∧ K t = 0x5a827999 := by
  unfold f K
  rw [if_pos h, if_pos h]
  exact ⟨rfl, rfl⟩

theorem second_stretch {t : Nat} (hlo : 20 ≤ t) (hhi : t < 40) :
    f t = Parity ∧ K t = 0x6ed9eba1 := by
  have h20 : ¬ t < 20 := by omega
  unfold f K
  rw [if_neg h20, if_neg h20, if_pos hhi, if_pos hhi]
  exact ⟨rfl, rfl⟩

theorem third_stretch {t : Nat} (hlo : 40 ≤ t) (hhi : t < 60) :
    f t = Maj ∧ K t = 0x8f1bbcdc := by
  have h20 : ¬ t < 20 := by omega
  have h40 : ¬ t < 40 := by omega
  unfold f K
  rw [if_neg h20, if_neg h20, if_neg h40, if_neg h40, if_pos hhi, if_pos hhi]
  exact ⟨rfl, rfl⟩

theorem last_stretch {t : Nat} (hlo : 60 ≤ t) : f t = Parity ∧ K t = 0xca62c1d6 := by
  have h20 : ¬ t < 20 := by omega
  have h40 : ¬ t < 40 := by omega
  have h60 : ¬ t < 60 := by omega
  unfold f K
  rw [if_neg h20, if_neg h20, if_neg h40, if_neg h40, if_neg h60, if_neg h60]
  exact ⟨rfl, rfl⟩

/-! ## Lengths -/

@[simp] theorem length_bigEndian (count n : Nat) : (bigEndian count n).length = count := by
  induction count with
  | zero => rfl
  | succ count ih => rw [bigEndian, List.length_cons, ih]

theorem length_pad (message : List UInt8) :
    (pad message).length = message.length + zeros message.length + 9 := by
  simp only [pad, List.length_append, List.length_cons, List.length_replicate,
    length_bigEndian]
  omega

theorem length_pad_mod (message : List UInt8) : (pad message).length % 64 = 0 := by
  rw [length_pad, zeros]
  omega

theorem length_digest (message : List UInt8) : (digest message).length = 20 := by
  simp [digest]

theorem length_hex (bytes : List UInt8) : (hex bytes).length = 2 * bytes.length := by
  induction bytes with
  | nil => rfl
  | cons byte bytes ih =>
      rw [hex, List.flatMap_cons, List.length_append, ← hex, ih, List.length_cons]
      simp only [List.length_cons, List.length_nil]
      omega

/-! ## Runs of rounds -/

/-- The recurrence of the schedule. -/
theorem W_of_ge (block : List UInt8) {t : Nat} (h : 16 ≤ t) :
    W block t =
      (W block (t - 3) ^^^ W block (t - 8) ^^^ W block (t - 14) ^^^
        W block (t - 16)).rotateLeft 1 := by
  rw [W, if_neg (by omega)]

theorem W_of_lt (block : List UInt8) {t : Nat} (h : t < 16) : W block t = M block t := by
  rw [W, if_pos h]

/-- Where the rounds of a stretch share one step on the word, they are a fold
over their words. -/
theorem foldl_rounds (block : List UInt8) (step : Words → BitVec 32 → Words)
    (n lo : Nat) (s : Words)
    (h : ∀ t, lo ≤ t → t < lo + n → ∀ s, round block s t = step s (W block t)) :
    (List.range' lo n).foldl (round block) s =
      ((List.range' lo n).map (W block)).foldl step s := by
  induction n generalizing lo s with
  | zero => rfl
  | succ n ih =>
      rw [List.range'_succ, List.map_cons, List.foldl_cons, List.foldl_cons,
        h lo (Nat.le_refl _) (by omega)]
      exact ih (lo + 1) _ (fun t hlo hhi => h t (by omega) (by omega))

end LoginServer.Verified.SecureHash
