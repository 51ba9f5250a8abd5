import Mathlib.Data.Nat.Basic

/-!
# `utils/tools.cpp`: the Adler checksum

`adlerChecksum` as the source computes it: 32-bit sums, reduced modulo 65521
once for every chunk of at most 5552 bytes.
-/

namespace LoginServer.Utils

/-- `NETWORKMESSAGE_MAXSIZE`, the size of `NetworkMessage::m_buffer`. -/
def NETWORKMESSAGE_MAXSIZE : Nat := 24590

/-- The inner `do … while (--tmp)` loop: one chunk, no reduction. -/
def adlerChunk : List UInt8 → BitVec 32 → BitVec 32 → BitVec 32 × BitVec 32
  | [], a, b => (a, b)
  | byte :: data, a, b =>
      let a := a + BitVec.ofNat 32 byte.toNat
      adlerChunk data a (b + a)

/-- The outer `while (length > 0)` loop.  `rounds` bounds the number of
chunks; each round takes at least one byte, so the number of bytes left is
always enough. -/
def adlerLoop : Nat → List UInt8 → BitVec 32 → BitVec 32 → BitVec 32 × BitVec 32
  | 0, _, a, b => (a, b)
  | rounds + 1, data, a, b =>
      if data.length > 0 then
        let tmp := if data.length > 5552 then 5552 else data.length
        let (a, b) := adlerChunk (data.take tmp) a b
        adlerLoop rounds (data.drop tmp) (a % 65521) (b % 65521)
      else (a, b)

/-- `adlerChecksum(data, length)`. -/
def adlerChecksum (data : List UInt8) : BitVec 32 :=
  if data.length > NETWORKMESSAGE_MAXSIZE then 0
  else
    let (a, b) := adlerLoop data.length data 1 0
    (b <<< 16) ||| a

example : adlerChecksum [0x57, 0x69, 0x6b, 0x69] = 0x03da0195 := by decide

end LoginServer.Utils
