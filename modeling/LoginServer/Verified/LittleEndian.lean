import Mathlib.Algebra.Group.Int.Defs
import Mathlib.Algebra.GroupWithZero.Nat
import Mathlib.Data.Nat.Basic

/-!
# Fixed-width integers as byte strings

`encode w n` is the little-endian image of `n` in `w` bytes, the bytes a
`memcpy` of a `w`-byte integer moves on the machines the server runs on;
`decode` is its inverse on byte strings.  The big-endian pair at the end is
the one multi-precision libraries use to import and export integers.

## Main results

* `decode_encode` — decoding an encoding truncates to the width.
* `encode_decode` — every byte string is the encoding of its own value.
-/

namespace LoginServer.Verified.LittleEndian

/-- The `w` low bytes of `n`, least significant first. -/
def encode : Nat → Nat → List UInt8
  | 0, _ => []
  | w + 1, n => UInt8.ofNat n :: encode w (n / 256)

/-- The number a byte string denotes, least significant byte first. -/
def decode : List UInt8 → Nat
  | [] => 0
  | b :: bs => b.toNat + 256 * decode bs

@[simp] theorem length_encode (w n : Nat) : (encode w n).length = w := by
  induction w generalizing n with
  | zero => rfl
  | succ w ih => simp [encode, ih]

/-- Decoding an encoding gives the number back, truncated to the width. -/
theorem decode_encode (w n : Nat) : decode (encode w n) = n % 256 ^ w := by
  induction w generalizing n with
  | zero => simp [encode, decode, Nat.mod_one]
  | succ w ih =>
      have hb : (UInt8.ofNat n).toNat = n % 256 := by
        simp [UInt8.toNat_ofNat']
      rw [encode, decode, ih, hb, Nat.pow_succ']
      exact (Nat.mod_mul).symm

/-- A number that fits the width survives the round trip. -/
theorem decode_encode_of_lt {w n : Nat} (h : n < 256 ^ w) :
    decode (encode w n) = n := by
  rw [decode_encode, Nat.mod_eq_of_lt h]

theorem decode_lt (bs : List UInt8) : decode bs < 256 ^ bs.length := by
  induction bs with
  | nil => simp [decode]
  | cons b bs ih =>
      have hb := b.toNat_lt
      rw [decode, List.length_cons, Nat.pow_succ']
      omega

/-- Every byte string is the encoding of the number it denotes. -/
theorem encode_decode (bs : List UInt8) :
    encode bs.length (decode bs) = bs := by
  induction bs with
  | nil => rfl
  | cons b bs ih =>
      have hb := b.toNat_lt
      have hlow : UInt8.ofNat (b.toNat + 256 * decode bs) = b := by
        apply UInt8.toNat_inj.mp
        rw [UInt8.toNat_ofNat']
        omega
      have hhigh : (b.toNat + 256 * decode bs) / 256 = decode bs := by omega
      rw [List.length_cons, decode, encode, hlow, hhigh, ih]

/-! ## Big-endian images -/

/-- The `w` low bytes of `n`, most significant first. -/
def encodeBE (w n : Nat) : List UInt8 := (encode w n).reverse

/-- The number a byte string denotes, most significant byte first. -/
def decodeBE (bs : List UInt8) : Nat := decode bs.reverse

@[simp] theorem length_encodeBE (w n : Nat) : (encodeBE w n).length = w := by
  simp [encodeBE]

end LoginServer.Verified.LittleEndian
