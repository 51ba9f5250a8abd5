import Mathlib.Data.List.Basic

/-!
# `utils/tools.cpp`: `transformToSHA1`

The streaming digest as the source computes it: a block of at most 64 bytes
that is compressed when it is full, a bit counter of two 32-bit words, and the
padding written into the last one or two blocks.  The list `messageBlock`
holds the first `index` bytes of the source's array; what the array holds
behind them is overwritten before a block is compressed.
-/

namespace LoginServer.Utils

/-- `circularShift(bits, value)`. -/
def circularShift (bits : Nat) (value : BitVec 32) : BitVec 32 :=
  (value <<< bits) ||| (value >>> (32 - bits))

/-- The five words of `H`, or of `A` to `E`. -/
structure Sha1Words where
  a : BitVec 32
  b : BitVec 32
  c : BitVec 32
  d : BitVec 32
  e : BitVec 32
  deriving DecidableEq, Repr

/-- `W[i]` for `i < 16`. -/
def blockWord (messageBlock : List UInt8) (i : Nat) : BitVec 32 :=
  let offset := i <<< 2
  let byte (k : Nat) : BitVec 32 := BitVec.ofNat 32 (messageBlock.getD k 0).toNat
  byte offset <<< 24 ||| byte (offset + 1) <<< 16 ||| byte (offset + 2) <<< 8 |||
    byte (offset + 3)

/-- The loop over `i` from 16: each round appends `W[i]`. -/
def expandWords : Nat → List (BitVec 32) → List (BitVec 32)
  | 0, W => W
  | rounds + 1, W =>
      let i := W.length
      expandWords rounds
        (W ++ [circularShift 1 (W.getD (i - 3) 0 ^^^ W.getD (i - 8) 0 ^^^
          W.getD (i - 14) 0 ^^^ W.getD (i - 16) 0)])

/-- One round of any of the four loops, with the loop's function of `B`, `C`
and `D` and its constant. -/
def sha1Round (f : BitVec 32 → BitVec 32 → BitVec 32 → BitVec 32)
    (constant : BitVec 32) (s : Sha1Words) (word : BitVec 32) : Sha1Words :=
  let tmp := circularShift 5 s.a + f s.b s.c s.d + s.e + word + constant
  { a := tmp, b := s.a, c := circularShift 30 s.b, d := s.c, e := s.d }

def processSHA1MessageBlock (messageBlock : List UInt8) (H : Sha1Words) : Sha1Words :=
  let W := expandWords 64 ((List.range 16).map (blockWord messageBlock))
  let s := (W.take 20).foldl
    (sha1Round (fun B C D => (B &&& C) ||| (~~~B &&& D)) 0x5A827999) H
  let s := ((W.drop 20).take 20).foldl
    (sha1Round (fun B C D => B ^^^ C ^^^ D) 0x6ED9EBA1) s
  let s := ((W.drop 40).take 20).foldl
    (sha1Round (fun B C D => (B &&& C) ||| (B &&& D) ||| (C &&& D)) 0x8F1BBCDC) s
  let s := ((W.drop 60).take 20).foldl
    (sha1Round (fun B C D => B ^^^ C ^^^ D) 0xCA62C1D6) s
  { a := H.a + s.a, b := H.b + s.b, c := H.c + s.c, d := H.d + s.d, e := H.e + s.e }

/-- The locals of `transformToSHA1`. -/
structure Sha1State where
  H : Sha1Words := ⟨0x67452301, 0xEFCDAB89, 0x98BADCFE, 0x10325476, 0xC3D2E1F0⟩
  messageBlock : List UInt8 := []
  lengthLow : BitVec 32 := 0
  lengthHigh : BitVec 32 := 0

/-- The body of the loop over the input. -/
def Sha1State.push (s : Sha1State) (ch : UInt8) : Sha1State :=
  let messageBlock := s.messageBlock ++ [ch]
  let lengthLow := s.lengthLow + 8
  let lengthHigh := if lengthLow = 0 then s.lengthHigh + 1 else s.lengthHigh
  if messageBlock.length = 64 then
    { H := processSHA1MessageBlock messageBlock s.H, messageBlock := [],
      lengthLow, lengthHigh }
  else { s with messageBlock, lengthLow, lengthHigh }

/-- `messageBlock[index++] = 0` while `index` is below `size`. -/
def zeroFill (size : Nat) (messageBlock : List UInt8) : List UInt8 :=
  messageBlock ++ List.replicate (size - messageBlock.length) 0

/-- The four bytes of a word, the highest one first. -/
def bigEndian (word : BitVec 32) : List UInt8 :=
  [24, 16, 8, 0].map fun shift => UInt8.ofNat (word >>> shift).toNat

/-- The padding: the marker, an extra block where the length no longer fits,
zeros and the bit count. -/
def Sha1State.finish (s : Sha1State) : Sha1Words :=
  let messageBlock := s.messageBlock ++ [0x80]
  let (messageBlock, H) :=
    if messageBlock.length > 56 then
      ([], processSHA1MessageBlock (zeroFill 64 messageBlock) s.H)
    else (messageBlock, s.H)
  processSHA1MessageBlock
    (zeroFill 56 messageBlock ++ bigEndian s.lengthHigh ++ bigEndian s.lengthLow) H

/-- `hexDigits`. -/
def hexDigit (value : Nat) : UInt8 :=
  if value < 10 then UInt8.ofNat (48 + value) else UInt8.ofNat (87 + value)

/-- `hexstring`: two digits a byte of `H`. -/
def hexString (H : Sha1Words) : List UInt8 :=
  ([H.a, H.b, H.c, H.d, H.e].flatMap bigEndian).flatMap fun byte =>
    [hexDigit (byte.toNat / 16), hexDigit (byte.toNat % 16)]

/-- `transformToSHA1(input)`. -/
def transformToSHA1 (input : List UInt8) : List UInt8 :=
  hexString (input.foldl Sha1State.push {}).finish

end LoginServer.Utils
