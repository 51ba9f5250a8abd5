import Mathlib.Algebra.GroupWithZero.Nat
import LoginServer.Utils.Tools
import LoginServer.Verified.DeferredReduction

/-!
# `adlerChecksum` is Adler-32

`adler32` is the definition of the checksum: two sums over the bytes, each
reduced modulo 65521 at every byte.  The source reduces once a chunk.  A chunk
has at most 5552 bytes and starts from two residues, and from there the second
sum stays below 2^32, so that no addition of a chunk loses a carry and the
late reduction gives the same residues.

## Main results

* `chunk_reach_lt` — the worst chunk stays below 2^32.
* `adlerChunk_spec`, `adlerLoop_spec` — one chunk, and all of them.
* `adlerChecksum_eq_adler32` — the checksum, and that no addition wraps.
-/

namespace LoginServer.Utils

open LoginServer.Verified.DeferredReduction

/-- The largest prime below 2^16. -/
def BASE : Nat := 65521

/-- The two sums of Adler-32. -/
def adler32 (data : List UInt8) : Nat × Nat :=
  reducedSums BASE (data.map UInt8.toNat) 1 0

/-! ## The additions -/

/-- The operands of the additions in one chunk, in the order of the loop. -/
def chunkAdditions : List UInt8 → BitVec 32 → BitVec 32 → List (BitVec 32 × BitVec 32)
  | [], _, _ => []
  | byte :: data, a, b =>
      let sum := a + BitVec.ofNat 32 byte.toNat
      (a, BitVec.ofNat 32 byte.toNat) :: (b, sum) :: chunkAdditions data sum (b + sum)

/-- The operands of the additions in `adlerLoop`. -/
def loopAdditions :
    Nat → List UInt8 → BitVec 32 → BitVec 32 → List (BitVec 32 × BitVec 32)
  | 0, _, _, _ => []
  | rounds + 1, data, a, b =>
      if data.length > 0 then
        let tmp := if data.length > 5552 then 5552 else data.length
        let (a', b') := adlerChunk (data.take tmp) a b
        chunkAdditions (data.take tmp) a b ++
          loopAdditions rounds (data.drop tmp) (a' % 65521) (b' % 65521)
      else []

/-- The operands of all additions of `adlerChecksum`. -/
def adlerAdditions (data : List UInt8) : List (BitVec 32 × BitVec 32) :=
  loopAdditions data.length data 1 0

/-- An addition of 32-bit words that does not wrap. -/
def Exact (p : BitVec 32 × BitVec 32) : Prop := p.1.toNat + p.2.toNat < 2 ^ 32

/-! ## One chunk -/

theorem toNat_byte (byte : UInt8) : (BitVec.ofNat 32 byte.toNat).toNat = byte.toNat := by
  rw [BitVec.toNat_ofNat]
  have := byte.toNat_lt
  exact Nat.mod_eq_of_lt (by omega)

theorem toNat_add_of_exact {p : BitVec 32 × BitVec 32} (h : Exact p) :
    (p.1 + p.2).toNat = p.1.toNat + p.2.toNat := by
  rw [BitVec.toNat_add]
  exact Nat.mod_eq_of_lt h

/-- As long as the bound of a chunk is below 2^32, the chunk computes the
unreduced sums and none of its additions wraps. -/
theorem adlerChunk_spec (data : List UInt8) (a b : BitVec 32)
    (h : reach 255 data.length a.toNat b.toNat < 2 ^ 32) :
    ((adlerChunk data a b).1.toNat, (adlerChunk data a b).2.toNat) =
        runningSums (data.map UInt8.toNat) a.toNat b.toNat ∧
      ∀ p ∈ chunkAdditions data a b, Exact p := by
  induction data generalizing a b with
  | nil => exact ⟨rfl, by simp [chunkAdditions]⟩
  | cons byte data ih =>
      have hbyte := byte.toNat_lt
      rw [List.length_cons, reach] at h
      have hle := le_reach 255 data.length (a.toNat + 255) (b.toNat + (a.toNat + 255))
      have hfst : Exact (a, BitVec.ofNat 32 byte.toNat) := by
        show a.toNat + (BitVec.ofNat 32 byte.toNat).toNat < 2 ^ 32
        rw [toNat_byte]
        omega
      have hsum : (a + BitVec.ofNat 32 byte.toNat).toNat = a.toNat + byte.toNat := by
        rw [toNat_add_of_exact hfst, toNat_byte]
      have hsnd : Exact (b, a + BitVec.ofNat 32 byte.toNat) := by
        show b.toNat + (a + BitVec.ofNat 32 byte.toNat).toNat < 2 ^ 32
        rw [hsum]
        omega
      have hsum' : (b + (a + BitVec.ofNat 32 byte.toNat)).toNat =
          b.toNat + (a.toNat + byte.toNat) := by
        rw [toNat_add_of_exact hsnd, hsum]
      have hrest := ih (a + BitVec.ofNat 32 byte.toNat)
        (b + (a + BitVec.ofNat 32 byte.toNat)) (by
          rw [hsum, hsum']
          exact Nat.lt_of_le_of_lt
            (reach_mono (Nat.le_refl _) (by omega) (by omega)) h)
      rw [hsum, hsum'] at hrest
      refine ⟨hrest.1, ?_⟩
      intro p hp
      simp only [chunkAdditions, List.mem_cons] at hp
      rcases hp with rfl | rfl | hp
      · exact hfst
      · exact hsnd
      · exact hrest.2 p hp

/-- The worst chunk: 5552 bytes of 255 after two sums of 65520. -/
theorem chunk_reach_lt {n a b : Nat} (hn : n ≤ 5552) (ha : a < BASE) (hb : b < BASE) :
    reach 255 n a b < 2 ^ 32 := by
  have hmono : reach 255 n a b ≤ reach 255 5552 65520 65520 :=
    reach_mono hn (by unfold BASE at ha; omega) (by unfold BASE at hb; omega)
  have hworst := two_mul_reach 255 5552 65520 65520
  omega

/-! ## All chunks -/

theorem toNat_mod_base (a : BitVec 32) : (a % 65521).toNat = a.toNat % BASE :=
  BitVec.toNat_umod

/-- The outer loop keeps both sums below 65521 and reduced as by the
definition; the induction is on the chunks left. -/
theorem adlerLoop_spec (rounds : Nat) (data : List UInt8) (a b : BitVec 32)
    (hrounds : data.length ≤ rounds) (ha : a.toNat < BASE) (hb : b.toNat < BASE) :
    ((adlerLoop rounds data a b).1.toNat, (adlerLoop rounds data a b).2.toNat) =
        reducedSums BASE (data.map UInt8.toNat) a.toNat b.toNat ∧
      ∀ p ∈ loopAdditions rounds data a b, Exact p := by
  induction rounds generalizing data a b with
  | zero =>
      have hnil : data = [] := List.length_eq_zero_iff.mp (by omega)
      subst hnil
      exact ⟨rfl, by simp [loopAdditions]⟩
  | succ rounds ih =>
      by_cases hpos : data.length > 0
      · let tmp := if data.length > 5552 then 5552 else data.length
        have htmp : tmp ≤ 5552 ∧ 0 < tmp := by
          simp only [tmp]
          split <;> omega
        have htake : (data.take tmp).length ≤ 5552 := by
          rw [List.length_take]
          omega
        have hchunk := adlerChunk_spec (data.take tmp) a b
          (chunk_reach_lt htake ha hb)
        let r := adlerChunk (data.take tmp) a b
        have hreduced : ((r.1 % 65521).toNat, (r.2 % 65521).toNat) =
            reducedSums BASE ((data.take tmp).map UInt8.toNat) a.toNat b.toNat := by
          have hmod := runningSums_mod BASE ((data.take tmp).map UInt8.toNat)
            a.toNat b.toNat
          rw [← hchunk.1, Nat.mod_eq_of_lt ha, Nat.mod_eq_of_lt hb] at hmod
          rw [toNat_mod_base, toNat_mod_base]
          exact hmod
        have hbase : 0 < BASE := by decide
        have hrest := ih (data.drop tmp) (r.1 % 65521) (r.2 % 65521)
          (by rw [List.length_drop]; omega)
          (by rw [toNat_mod_base]; exact Nat.mod_lt _ hbase)
          (by rw [toNat_mod_base]; exact Nat.mod_lt _ hbase)
        have hsplit : data.map UInt8.toNat =
            (data.take tmp).map UInt8.toNat ++ (data.drop tmp).map UInt8.toNat := by
          rw [← List.map_append, List.take_append_drop]
        constructor
        · rw [adlerLoop, if_pos hpos, hsplit, reducedSums_append, ← hreduced]
          exact hrest.1
        · intro p hp
          rw [loopAdditions, if_pos hpos] at hp
          rcases List.mem_append.mp hp with hp | hp
          · exact hchunk.2 p hp
          · exact hrest.2 p hp
      · have hnil : data = [] := List.length_eq_zero_iff.mp (by omega)
        subst hnil
        exact ⟨rfl, by simp [loopAdditions]⟩

/-- The two halves of the result do not overlap. -/
theorem toNat_shiftLeft_or {a b : BitVec 32} (ha : a.toNat < BASE) (hb : b.toNat < BASE) :
    ((b <<< 16) ||| a).toNat = b.toNat * 65536 + a.toNat := by
  unfold BASE at ha hb
  have hshift : (b <<< 16).toNat = b.toNat <<< 16 := by
    rw [BitVec.toNat_shiftLeft, Nat.shiftLeft_eq]
    exact Nat.mod_eq_of_lt (by omega)
  rw [BitVec.toNat_or, hshift, ← Nat.shiftLeft_add_eq_or_of_lt (by omega), Nat.shiftLeft_eq]

/-- For every message a buffer can hold, the checksum is Adler-32, and no
addition on the way wraps. -/
theorem adlerChecksum_eq_adler32 {data : List UInt8}
    (h : data.length ≤ NETWORKMESSAGE_MAXSIZE) :
    (adlerChecksum data).toNat = (adler32 data).2 * 65536 + (adler32 data).1 ∧
      ∀ p ∈ adlerAdditions data, p.1.toNat + p.2.toNat < 2 ^ 32 := by
  have hbase : 1 < BASE ∧ 0 < BASE := by decide
  have hloop := adlerLoop_spec data.length data 1 0 (Nat.le_refl _) hbase.1 hbase.2
  refine ⟨?_, hloop.2⟩
  have hlt := reducedSums_lt hbase.2 (data.map UInt8.toNat) hbase.1 hbase.2
  have hsums : ((adlerLoop data.length data 1 0).1.toNat,
      (adlerLoop data.length data 1 0).2.toNat) = adler32 data := hloop.1
  have hlt' : (adler32 data).1 < BASE ∧ (adler32 data).2 < BASE := hlt
  rw [← hsums] at hlt' ⊢
  rw [adlerChecksum, if_neg (by omega)]
  exact toNat_shiftLeft_or hlt'.1 hlt'.2

/-- Two chunks, with the largest bytes. -/
def sampleData : List UInt8 := List.replicate 6000 0xff

theorem adler32_sampleData : adler32 sampleData = (23018, 42135) := by
  decide +kernel

theorem adlerChecksum_eq_adler32_chunks :
    sampleData.length ≤ NETWORKMESSAGE_MAXSIZE ∧
      (adlerChecksum sampleData).toNat = 42135 * 65536 + 23018 ∧
      ∀ p ∈ adlerAdditions sampleData, p.1.toNat + p.2.toNat < 2 ^ 32 := by
  have hlength : sampleData.length ≤ NETWORKMESSAGE_MAXSIZE := by
    rw [sampleData, List.length_replicate]
    decide
  obtain ⟨hsum, hexact⟩ := adlerChecksum_eq_adler32 hlength
  refine ⟨hlength, ?_, hexact⟩
  rw [hsum, adler32_sampleData]

end LoginServer.Utils
