import LoginServer.Utils.Sha1
import LoginServer.Verified.SecureHash

/-!
# `transformToSHA1` is SHA-1

The source pads in place: it compresses while it reads, keeps the bit count in
two words and writes the marker, the zeros and the count behind what is left
in `messageBlock`.  The standard pads first and compresses then.

The loop over the input is the absorber of `BlockHash` beside a counter, so
after it `H` is the fold over the full blocks, `messageBlock` is the rest and
the two words are the count modulo 2^64.  What `finish` appends to the rest is
the tail of the padded message, one block or two.

## Main results

* `processSHA1MessageBlock_eq` — one block, all 80 rounds.
* `pushed_foldl` — the state after the loop over the input.
* `finish_eq` — the padding, with and without the extra block.
* `transformToSHA1_eq_digest` — the result, in hexadecimal digits.
-/

namespace LoginServer.Utils

open LoginServer.Verified.BlockHash
open LoginServer.Verified

/-- The words of `H` as a hash value. -/
def Sha1Words.toWords (s : Sha1Words) : SecureHash.Words := ⟨s.a, s.b, s.c, s.d, s.e⟩

/-! ## One block -/

theorem circularShift_eq (v : BitVec 32) :
    circularShift 1 v = v.rotateLeft 1 ∧ circularShift 5 v = v.rotateLeft 5 ∧
      circularShift 30 v = v.rotateLeft 30 :=
  ⟨rfl, rfl, rfl⟩

/-- The choice, written with `|` in the source and with `^` in the standard. -/
theorem or_eq_Ch (B C D : BitVec 32) : (B &&& C) ||| (~~~B &&& D) = SecureHash.Ch B C D := by
  apply BitVec.eq_of_getLsbD_eq
  intro i hi
  simp only [SecureHash.Ch, BitVec.getLsbD_or, BitVec.getLsbD_xor, BitVec.getLsbD_and,
    BitVec.getLsbD_not]
  cases B.getLsbD i <;> simp

theorem or_eq_Maj (B C D : BitVec 32) :
    (B &&& C) ||| (B &&& D) ||| (C &&& D) = SecureHash.Maj B C D := by
  apply BitVec.eq_of_getLsbD_eq
  intro i hi
  simp only [SecureHash.Maj, BitVec.getLsbD_or, BitVec.getLsbD_xor, BitVec.getLsbD_and]
  cases B.getLsbD i <;> cases C.getLsbD i <;> simp

private theorem mul_pow_or {n y k : Nat} (h : y < 2 ^ k) :
    n * 2 ^ k ||| y = n * 2 ^ k + y := by
  rw [← Nat.shiftLeft_eq, Nat.shiftLeft_add_eq_or_of_lt h]

private theorem place_lt {x : Nat} (h : x < 2 ^ 8) (j : Nat) : x * 2 ^ j < 2 ^ (8 + j) := by
  rw [Nat.pow_add]
  exact Nat.mul_lt_mul_of_pos_right h (Nat.two_pow_pos j)

/-- Byte by byte from the top, each below the place of the one before it. -/
private theorem or_bytes {x0 x1 x2 x3 : Nat} (h1 : x1 < 2 ^ 8) (h2 : x2 < 2 ^ 8)
    (h3 : x3 < 2 ^ 8) :
    x0 * 2 ^ 24 ||| x1 * 2 ^ 16 ||| x2 * 2 ^ 8 ||| x3 =
      x0 * 2 ^ 24 + x1 * 2 ^ 16 + x2 * 2 ^ 8 + x3 := by
  have hplace1 : x1 * 2 ^ 16 < 2 ^ 24 := place_lt h1 16
  have hplace2 : x2 * 2 ^ 8 < 2 ^ 16 := place_lt h2 8
  have htop : x0 * 2 ^ 24 + x1 * 2 ^ 16 = (x0 * 2 ^ 8 + x1) * 2 ^ 16 := by
    rw [Nat.add_mul, Nat.mul_assoc, ← Nat.pow_add]
  have hmiddle : (x0 * 2 ^ 8 + x1) * 2 ^ 16 + x2 * 2 ^ 8 =
      ((x0 * 2 ^ 8 + x1) * 2 ^ 8 + x2) * 2 ^ 8 := by
    rw [Nat.add_mul _ x2, Nat.mul_assoc, ← Nat.pow_add]
  rw [mul_pow_or hplace1, htop, mul_pow_or hplace2, hmiddle, mul_pow_or h3]

theorem blockWord_eq (messageBlock : List UInt8) (i : Nat) :
    blockWord messageBlock i = SecureHash.M messageBlock i := by
  have hoffset : i <<< 2 = 4 * i := by
    rw [Nat.shiftLeft_eq]
    omega
  simp only [blockWord, SecureHash.M, hoffset, Nat.add_zero]
  have h0 := (messageBlock.getD (4 * i) 0).toNat_lt
  have h1 := (messageBlock.getD (4 * i + 1) 0).toNat_lt
  have h2 := (messageBlock.getD (4 * i + 2) 0).toNat_lt
  have h3 := (messageBlock.getD (4 * i + 3) 0).toNat_lt
  generalize (messageBlock.getD (4 * i) 0).toNat = x0 at *
  generalize (messageBlock.getD (4 * i + 1) 0).toNat = x1 at *
  generalize (messageBlock.getD (4 * i + 2) 0).toNat = x2 at *
  generalize (messageBlock.getD (4 * i + 3) 0).toNat = x3 at *
  have hshift : ∀ x k : Nat, x * 2 ^ k < 2 ^ 32 →
      (BitVec.ofNat 32 x <<< k).toNat = x * 2 ^ k := by
    intro x k hlt
    rw [BitVec.toNat_shiftLeft, BitVec.toNat_ofNat, Nat.shiftLeft_eq, Nat.mod_mul_mod]
    exact Nat.mod_eq_of_lt hlt
  apply BitVec.eq_of_toNat_eq
  rw [BitVec.toNat_or, BitVec.toNat_or, BitVec.toNat_or, hshift x0 24 (by omega),
    hshift x1 16 (by omega), hshift x2 8 (by omega), BitVec.toNat_ofNat,
    BitVec.toNat_ofNat, Nat.mod_eq_of_lt (by omega), Nat.mod_eq_of_lt (by omega)]
  exact or_bytes h1 h2 h3

/-- The array `W` holds the schedule; the induction is on the rounds of the
loop that fills it. -/
theorem expandWords_eq (messageBlock : List UInt8) (rounds m : Nat) (h : 16 ≤ m) :
    expandWords rounds ((List.range m).map (SecureHash.W messageBlock)) =
      (List.range (m + rounds)).map (SecureHash.W messageBlock) := by
  induction rounds generalizing m with
  | zero => rfl
  | succ rounds ih =>
      have hget : ∀ i, i < m →
          ((List.range m).map (SecureHash.W messageBlock)).getD i 0 =
            SecureHash.W messageBlock i := by
        intro i hi
        simp [List.getD_eq_getElem?_getD, hi]
      have hnext : circularShift 1
          (SecureHash.W messageBlock (m - 3) ^^^ SecureHash.W messageBlock (m - 8) ^^^
            SecureHash.W messageBlock (m - 14) ^^^ SecureHash.W messageBlock (m - 16)) =
          SecureHash.W messageBlock m := by
        rw [SecureHash.W_of_ge messageBlock h]
        exact (circularShift_eq _).1
      rw [expandWords]
      simp only [List.length_map, List.length_range]
      rw [hget _ (by omega), hget _ (by omega), hget _ (by omega), hget _ (by omega),
        hnext, ← List.map_singleton, ← List.map_append, ← List.range_succ,
        ih (m + 1) (by omega)]
      congr 2
      omega

/-- The body of the four loops on the words of a hash value. -/
def roundStep (f : BitVec 32 → BitVec 32 → BitVec 32 → BitVec 32) (constant : BitVec 32)
    (s : SecureHash.Words) (word : BitVec 32) : SecureHash.Words :=
  { a := s.a.rotateLeft 5 + f s.b s.c s.d + s.e + word + constant
    b := s.a
    c := s.b.rotateLeft 30
    d := s.c
    e := s.d }

theorem foldl_sha1Round (f : BitVec 32 → BitVec 32 → BitVec 32 → BitVec 32)
    (constant : BitVec 32) (words : List (BitVec 32)) (s : Sha1Words) :
    (words.foldl (sha1Round f constant) s).toWords =
      words.foldl (roundStep f constant) s.toWords := by
  induction words generalizing s with
  | nil => rfl
  | cons word words ih => exact ih (sha1Round f constant s word)

/-- One of the four loops runs the rounds of its stretch. -/
theorem loop_eq_rounds (messageBlock : List UInt8)
    (f : BitVec 32 → BitVec 32 → BitVec 32 → BitVec 32) (constant : BitVec 32)
    (lo n : Nat) (s : Sha1Words)
    (h : ∀ t, lo ≤ t → t < lo + n → (∀ B C D, f B C D = SecureHash.f t B C D) ∧
      constant = SecureHash.K t) :
    (((List.range' lo n).map (SecureHash.W messageBlock)).foldl
        (sha1Round f constant) s).toWords =
      (List.range' lo n).foldl (SecureHash.round messageBlock) s.toWords := by
  have hstep : ∀ t, lo ≤ t → t < lo + n → ∀ s,
      SecureHash.round messageBlock s t =
        roundStep f constant s (SecureHash.W messageBlock t) := by
    intro t hlo hhi s
    obtain ⟨hf, hconstant⟩ := h t hlo hhi
    rw [SecureHash.round, roundStep, hf, hconstant, BitVec.add_assoc,
      BitVec.add_comm (SecureHash.K t), ← BitVec.add_assoc]
  rw [foldl_sha1Round, SecureHash.foldl_rounds messageBlock _ n lo s.toWords hstep]

private theorem range_eighty :
    List.range 80 =
      List.range' 0 20 ++ List.range' 20 20 ++ List.range' 40 20 ++ List.range' 60 20 := by
  decide

private theorem segment_eq {α : Type} (g : Nat → α) {N lo n : Nat} (h : lo + n ≤ N) :
    (((List.range N).map g).drop lo).take n = (List.range' lo n).map g := by
  rw [← List.map_drop, ← List.map_take, List.range_eq_range', List.drop_range',
    List.take_range'_of_length_ge (by omega), Nat.zero_add, Nat.mul_one]

private theorem first_words {α : Type} (g : Nat → α) :
    ((List.range 80).map g).take 20 = (List.range' 0 20).map g := by
  have h := segment_eq g (show 0 + 20 ≤ 80 by omega)
  rwa [List.drop_zero] at h

/-- The four loops are the 80 rounds. -/
theorem loops_eq_rounds (messageBlock : List UInt8) (H : Sha1Words) :
    let W := (List.range 80).map (SecureHash.W messageBlock)
    let s := (W.take 20).foldl
      (sha1Round (fun B C D => (B &&& C) ||| (~~~B &&& D)) 0x5A827999) H
    let s := ((W.drop 20).take 20).foldl
      (sha1Round (fun B C D => B ^^^ C ^^^ D) 0x6ED9EBA1) s
    let s := ((W.drop 40).take 20).foldl
      (sha1Round (fun B C D => (B &&& C) ||| (B &&& D) ||| (C &&& D)) 0x8F1BBCDC) s
    let s := ((W.drop 60).take 20).foldl
      (sha1Round (fun B C D => B ^^^ C ^^^ D) 0xCA62C1D6) s
    s.toWords = (List.range 80).foldl (SecureHash.round messageBlock) H.toWords := by
  intro W s1 s2 s3 s4
  have h1 : s1.toWords =
      (List.range' 0 20).foldl (SecureHash.round messageBlock) H.toWords := by
    have htake : W.take 20 = (List.range' 0 20).map (SecureHash.W messageBlock) :=
      first_words (SecureHash.W messageBlock)
    simp only [s1, htake]
    refine loop_eq_rounds messageBlock _ _ 0 20 H (fun t _ hhi => ?_)
    rw [(SecureHash.first_stretch hhi).1, (SecureHash.first_stretch hhi).2]
    exact ⟨or_eq_Ch, rfl⟩
  have h2 : s2.toWords =
      (List.range' 20 20).foldl (SecureHash.round messageBlock) s1.toWords := by
    simp only [s2, W]
    rw [segment_eq _ (by omega)]
    refine loop_eq_rounds messageBlock _ _ 20 20 s1 (fun t hlo hhi => ?_)
    rw [(SecureHash.second_stretch hlo hhi).1, (SecureHash.second_stretch hlo hhi).2]
    exact ⟨fun _ _ _ => rfl, rfl⟩
  have h3 : s3.toWords =
      (List.range' 40 20).foldl (SecureHash.round messageBlock) s2.toWords := by
    simp only [s3, W]
    rw [segment_eq _ (by omega)]
    refine loop_eq_rounds messageBlock _ _ 40 20 s2 (fun t hlo hhi => ?_)
    rw [(SecureHash.third_stretch hlo hhi).1, (SecureHash.third_stretch hlo hhi).2]
    exact ⟨or_eq_Maj, rfl⟩
  have h4 : s4.toWords =
      (List.range' 60 20).foldl (SecureHash.round messageBlock) s3.toWords := by
    simp only [s4, W]
    rw [segment_eq _ (by omega)]
    refine loop_eq_rounds messageBlock _ _ 60 20 s3 (fun t hlo _ => ?_)
    rw [(SecureHash.last_stretch hlo).1, (SecureHash.last_stretch hlo).2]
    exact ⟨fun _ _ _ => rfl, rfl⟩
  rw [range_eighty, List.foldl_append, List.foldl_append, List.foldl_append, ← h1, ← h2,
    ← h3, ← h4]

/-- The compression of the source is that of the standard. -/
theorem processSHA1MessageBlock_eq (messageBlock : List UInt8) (H : Sha1Words) :
    (processSHA1MessageBlock messageBlock H).toWords =
      SecureHash.compress H.toWords messageBlock := by
  have hblock : (List.range 16).map (blockWord messageBlock) =
      (List.range 16).map (SecureHash.W messageBlock) := by
    apply List.map_congr_left
    intro i hi
    rw [blockWord_eq, SecureHash.W_of_lt messageBlock (List.mem_range.mp hi)]
  have hwords : expandWords 64 ((List.range 16).map (blockWord messageBlock)) =
      (List.range 80).map (SecureHash.W messageBlock) := by
    rw [hblock, expandWords_eq messageBlock 64 16 (Nat.le_refl _)]
  have hrounds := loops_eq_rounds messageBlock H
  rw [SecureHash.compress, ← hrounds]
  simp only [processSHA1MessageBlock, hwords]
  rfl

/-! ## The loop over the input -/

/-- The streaming part of the state. -/
def Sha1State.absorber (s : Sha1State) : Absorber SecureHash.Words UInt8 :=
  ⟨s.H.toWords, s.messageBlock⟩

theorem absorber_push (s : Sha1State) (ch : UInt8) :
    (s.push ch).absorber = s.absorber.push 64 SecureHash.compress ch := by
  unfold Sha1State.push Absorber.push
  by_cases hfull : (s.messageBlock ++ [ch]).length = 64
  · have hfull' : (s.absorber.buffer ++ [ch]).length = 64 := hfull
    rw [if_pos hfull']
    simp only [if_pos hfull]
    show Absorber.mk (processSHA1MessageBlock _ _).toWords [] = _
    rw [processSHA1MessageBlock_eq]
    rfl
  · have hfull' : ¬ (s.absorber.buffer ++ [ch]).length = 64 := hfull
    rw [if_neg hfull']
    simp only [if_neg hfull]
    rfl

/-- The two words of the counter hold `bits` modulo 2^64. -/
structure Counted (s : Sha1State) (bits : Nat) : Prop where
  low : s.lengthLow.toNat = bits % 2 ^ 32
  high : s.lengthHigh.toNat = bits / 2 ^ 32 % 2 ^ 32

/-- The carry: the low word is a multiple of eight, so when it wraps it is
zero, and only then. -/
theorem counted_push {s : Sha1State} {bits : Nat} (hbits : bits % 8 = 0)
    (h : Counted s bits) (ch : UInt8) : Counted (s.push ch) (bits + 8) := by
  have hlow := h.low
  have hhigh := h.high
  have hsum : (s.lengthLow + 8).toNat = (bits + 8) % 2 ^ 32 := by
    rw [BitVec.toNat_add, hlow]
    exact Nat.mod_add_mod bits (2 ^ 32) 8
  have hzero : s.lengthLow + 8 = 0 ↔ (bits + 8) % 2 ^ 32 = 0 := by
    rw [← hsum]
    constructor
    · intro h0
      rw [h0]
      rfl
    · intro h0
      exact BitVec.eq_of_toNat_eq h0
  have hpush : (s.push ch).lengthLow = s.lengthLow + 8 ∧
      (s.push ch).lengthHigh =
        if s.lengthLow + 8 = 0 then s.lengthHigh + 1 else s.lengthHigh := by
    unfold Sha1State.push
    dsimp only
    split <;> exact ⟨rfl, rfl⟩
  refine ⟨?_, ?_⟩
  · rw [hpush.1, hsum]
  · rw [hpush.2]
    by_cases hcarry : s.lengthLow + 8 = 0
    · have hwrap := hzero.mp hcarry
      rw [if_pos hcarry, BitVec.toNat_add, hhigh]
      show (bits / 2 ^ 32 % 2 ^ 32 + 1) % 2 ^ 32 = _
      omega
    · have hnowrap : (bits + 8) % 2 ^ 32 ≠ 0 := fun h0 => hcarry (hzero.mpr h0)
      rw [if_neg hcarry, hhigh]
      omega

/-- After the loop: the absorber has taken the input in, and the two words
hold its length in bits. -/
theorem pushed_foldl (input : List UInt8) :
    Absorbed 64 SecureHash.compress SecureHash.initial input
        (input.foldl Sha1State.push {}).absorber ∧
      Counted (input.foldl Sha1State.push {}) (8 * input.length) := by
  induction input using List.reverseRecOn with
  | nil => exact ⟨absorbed_foldl (by omega) _ _ [], ⟨rfl, rfl⟩⟩
  | append_singleton input ch ih =>
      rw [List.foldl_append, List.length_append, Nat.mul_add]
      constructor
      · show Absorbed _ _ _ _ (Sha1State.push _ ch).absorber
        rw [absorber_push]
        exact absorbed_push ih.1 ch
      · exact counted_push (by omega) ih.2 ch

/-! ## The padding -/

theorem bigEndian_eq (word : BitVec 32) :
    bigEndian word = SecureHash.bigEndian 4 word.toNat := by
  simp only [bigEndian, SecureHash.bigEndian, List.map_cons, List.map_nil,
    BitVec.toNat_ushiftRight, Nat.shiftRight_eq_div_pow]
  rfl

private theorem ofNat_congr {m n : Nat} (h : m % 256 = n % 256) :
    UInt8.ofNat m = UInt8.ofNat n := by
  apply UInt8.toNat_inj.mp
  rw [UInt8.toNat_ofNat', UInt8.toNat_ofNat']
  exact h

/-- The two words of the counter are the eight bytes of the count. -/
theorem bigEndian_counter {s : Sha1State} {bits : Nat} (h : Counted s bits) :
    bigEndian s.lengthHigh ++ bigEndian s.lengthLow = SecureHash.bigEndian 8 bits := by
  rw [bigEndian_eq, bigEndian_eq, h.low, h.high]
  simp only [SecureHash.bigEndian, List.cons_append, List.nil_append, List.cons.injEq,
    and_true]
  refine ⟨?_, ?_, ?_, ?_, ?_, ?_, ?_, ?_⟩ <;> exact ofNat_congr (by omega)

/-- What `finish` compresses on top of `H`. -/
def tail (messageBlock : List UInt8) (bits : Nat) : List UInt8 :=
  messageBlock ++ 0x80 :: List.replicate ((119 - messageBlock.length) % 64) 0 ++
    SecureHash.bigEndian 8 bits

/-- The padding of the source, one block or two, is the tail of the padded
message. -/
theorem finish_eq {s : Sha1State} {bits : Nat} (hblock : s.messageBlock.length < 64)
    (hbits : Counted s bits) :
    s.finish.toWords =
      foldBlocks 64 SecureHash.compress ((tail s.messageBlock bits).length / 64)
        s.H.toWords (tail s.messageBlock bits) := by
  have hcount := bigEndian_counter hbits
  by_cases hlong : (s.messageBlock ++ [0x80]).length > 56
  · have hlen : 55 < s.messageBlock.length := by
      rw [List.length_append, List.length_singleton] at hlong
      omega
    -- the marker and zeros fill the first block, zeros and the count the second
    have hfirst : (zeroFill 64 (s.messageBlock ++ [0x80])).length = 64 := by
      simp only [zeroFill, List.length_append, List.length_replicate, List.length_singleton]
      omega
    have hsecond : (zeroFill 56 [] ++ bigEndian s.lengthHigh ++
        bigEndian s.lengthLow).length = 64 := by
      rw [List.append_assoc, hcount, List.length_append, SecureHash.length_bigEndian]
      simp [zeroFill]
    have htail : tail s.messageBlock bits =
        zeroFill 64 (s.messageBlock ++ [0x80]) ++
          (zeroFill 56 [] ++ bigEndian s.lengthHigh ++ bigEndian s.lengthLow) := by
      have hzeros : (119 - s.messageBlock.length) % 64 =
          (64 - (s.messageBlock ++ [0x80]).length) + 56 := by
        rw [List.length_append, List.length_singleton]
        omega
      rw [tail, hzeros, List.replicate_add, List.append_assoc (zeroFill 56 []), hcount]
      simp [zeroFill]
    have hcompress : s.finish =
        processSHA1MessageBlock
          (zeroFill 56 [] ++ bigEndian s.lengthHigh ++ bigEndian s.lengthLow)
          (processSHA1MessageBlock (zeroFill 64 (s.messageBlock ++ [0x80])) s.H) := by
      simp only [Sha1State.finish, if_pos hlong]
    rw [htail, List.length_append, hfirst, hsecond, hcompress, processSHA1MessageBlock_eq,
      processSHA1MessageBlock_eq, ← foldBlocks_one 64 SecureHash.compress _ hfirst]
    exact (foldBlocks_snoc 64 SecureHash.compress s.H.toWords hfirst hsecond).symm
  · have hlen : s.messageBlock.length ≤ 55 := by
      rw [List.length_append, List.length_singleton] at hlong
      omega
    have htail : tail s.messageBlock bits =
        zeroFill 56 (s.messageBlock ++ [0x80]) ++ bigEndian s.lengthHigh ++
          bigEndian s.lengthLow := by
      have hzeros : (119 - s.messageBlock.length) % 64 =
          56 - (s.messageBlock ++ [0x80]).length := by
        rw [List.length_append, List.length_singleton]
        omega
      rw [tail, hzeros, List.append_assoc (zeroFill 56 _), hcount]
      simp [zeroFill]
    have hone : (tail s.messageBlock bits).length = 64 := by
      simp only [tail, List.length_append, List.length_cons, List.length_replicate,
        SecureHash.length_bigEndian]
      omega
    have hcompress : s.finish = processSHA1MessageBlock (tail s.messageBlock bits) s.H := by
      rw [htail]
      simp only [Sha1State.finish, if_neg hlong]
    rw [hone, hcompress, processSHA1MessageBlock_eq]
    exact (foldBlocks_one 64 SecureHash.compress s.H.toWords hone).symm

/-! ## The digest -/

/-- The words `transformToSHA1` ends with are the hash value. -/
theorem finish_eq_hash (input : List UInt8) :
    (input.foldl Sha1State.push {}).finish.toWords = SecureHash.hash input := by
  obtain ⟨habsorbed, hcounted⟩ := pushed_foldl input
  let s := input.foldl Sha1State.push {}
  have hblock : s.messageBlock.length < 64 := habsorbed.partial_
  obtain ⟨blocks, hinput, hblocks, hstate⟩ := habsorbed.split
  have hinput' : input = blocks ++ s.messageBlock := hinput
  have hpad : SecureHash.pad input = blocks ++ tail s.messageBlock (8 * input.length) := by
    have hzeros : SecureHash.zeros input.length = (119 - s.messageBlock.length) % 64 := by
      rw [SecureHash.zeros, hinput', List.length_append]
      omega
    rw [SecureHash.pad, hzeros, tail]
    nth_rewrite 1 [hinput']
    simp only [List.append_assoc]
  have hwhole := SecureHash.length_pad_mod input
  have hcount : (SecureHash.pad input).length / 64 =
      blocks.length / 64 + (tail s.messageBlock (8 * input.length)).length / 64 := by
    rw [hpad, List.length_append] at hwhole ⊢
    omega
  rw [SecureHash.hash, hcount, hpad, foldBlocks_append 64 SecureHash.compress _ _ _ _ _ hblocks,
    ← hstate]
  exact finish_eq hblock hcounted

theorem hexDigit_eq :
    ∀ value, value < 16 → hexDigit value = SecureHash.digits.getD value 0 := by
  decide

theorem hexString_eq (H : Sha1Words) :
    hexString H =
      SecureHash.hex ([H.a, H.b, H.c, H.d, H.e].flatMap fun word =>
        SecureHash.bigEndian 4 word.toNat) := by
  have hwords : bigEndian = fun word : BitVec 32 => SecureHash.bigEndian 4 word.toNat :=
    funext bigEndian_eq
  rw [hexString, SecureHash.hex, hwords]
  congr 1
  funext byte
  have hbyte := byte.toNat_lt
  rw [hexDigit_eq _ (by omega), hexDigit_eq _ (by omega)]

/-- The 40 digits of the digest of the standard.  The standard stops at 2^61
bytes; from there on either side has the bit count modulo 2^64. -/
theorem transformToSHA1_eq_digest (input : List UInt8) :
    transformToSHA1 input = SecureHash.hex (SecureHash.digest input) ∧
      (transformToSHA1 input).length = 40 := by
  have heq : transformToSHA1 input = SecureHash.hex (SecureHash.digest input) := by
    rw [transformToSHA1, hexString_eq, SecureHash.digest, ← finish_eq_hash]
    rfl
  refine ⟨heq, ?_⟩
  rw [heq, SecureHash.length_hex, SecureHash.length_digest]

/-- The digest of `abc`. -/
example : transformToSHA1 [0x61, 0x62, 0x63] =
    ("a9993e364706816aba3e25717850c26c9cd0d89d".toList.map fun c => UInt8.ofNat c.toNat) := by
  decide +kernel

end LoginServer.Utils
