import LoginServer.Network.BufferBounds
import LoginServer.Network.Protocol

/-!
# What `encryptMessage` makes of a body

A message that was created, filled and not sent yet has a simple shape:
`Holds body`.  `encryptMessage` turns it into a frame in three steps, the
inner length, the cipher over length, body and padding, and the two outer
headers.  Each step is described by what it does to the buffer, the start
and the length, and the frame is put together from that.

Padding passes through `canAdd` like every other add, so the longest body a
script can build, `UNPADDED` bytes, is the one that does not get any.

## Main results

* `Holds.append` — the adders extend the body.
* `mod_eight_of_ne` — every other body is padded to whole blocks.
* `encryptMessage_wire` — the bytes that go to the socket.
* `safe_encryptMessage` — the assertions hold and no index leaves the buffer.
-/

namespace LoginServer.Network

open LoginServer.Verified
open LoginServer.Verified.ByteMemory
open LoginServer.Verified.BlockLoop
open LoginServer.Utils

/-- The length of the body `addPaddingBytes` has no room to pad. -/
def UNPADDED : Nat := 24567

/-- The padding `XTEA::encrypt` asks for on a body of `n` bytes, if
`addPaddingBytes` grants it. -/
def paddingLength (n : Nat) : Nat :=
  if (n + 2) % 8 ≠ 0 ∧ 8 + n + (8 - (n + 2) % 8) < MAX_BODY_LENGTH then
    8 - (n + 2) % 8
  else 0

theorem paddingLength_le (n : Nat) : paddingLength n ≤ 7 := by
  unfold paddingLength
  split <;> omega

/-- Every body but the longest one fills whole blocks. -/
theorem mod_eight_of_ne {n : Nat} (hn : 8 + n < MAX_BODY_LENGTH) (h : n ≠ UNPADDED) :
    (n + 2 + paddingLength n) % 8 = 0 := by
  rw [MAX_BODY_LENGTH_eq] at hn
  unfold UNPADDED at h
  unfold paddingLength
  rw [MAX_BODY_LENGTH_eq]
  split <;> omega

/-- The longest body does not. -/
theorem mod_eight_of_eq : (UNPADDED + 2 + paddingLength UNPADDED) % 8 = 1 := by
  decide

namespace OutputMessage

/-- A message with `body` added to it, and not sent. -/
structure Holds (m : OutputMessage) (body : Bytes) : Prop where
  start : m.start = 8
  pos : m.pos = 8 + body.length
  len : m.len = body.length
  bytes : read m.buffer 8 body.length = body
  room : 8 + body.length < MAX_BODY_LENGTH

theorem holds_create (memory : Memory) : (create memory).Holds [] :=
  { start := rfl
    pos := rfl
    len := rfl
    bytes := rfl
    room := by decide }

/-- An add that passes its guard extends the body. -/
theorem Holds.append {m : OutputMessage} {body : Bytes} (h : m.Holds body)
    (bytes : Bytes) (hroom : m.pos + bytes.length < MAX_BODY_LENGTH) :
    (m.update fun m => m.append bytes).Holds (body ++ bytes) := by
  have hpos := h.pos
  have hlen := h.len
  rw [MAX_BODY_LENGTH_eq] at hroom
  refine
    { start := h.start
      pos := ?_
      len := ?_
      bytes := ?_
      room := ?_ }
  · show (m.toNetworkMessage.append bytes).pos = _
    rw [NetworkMessage.append_pos (by omega), hpos, List.length_append]
    omega
  · show (m.toNetworkMessage.append bytes).len = _
    rw [NetworkMessage.append_len (by omega), hlen, List.length_append]
  · show read (write m.buffer m.pos bytes) 8 _ = _
    rw [List.length_append, read_append,
      read_write_disjoint (Or.inl (by omega)), h.bytes, ← hpos,
      read_write_of_length rfl]
  · rw [List.length_append, MAX_BODY_LENGTH_eq]
    omega

/-! ## Headers -/

section
variable {m : OutputMessage} {w : Width} {value : w.Value}

theorem addHeader_start (h : w.bytes ≤ m.start) :
    (m.addHeader w value).start = m.start - w.bytes := by
  have hlt : m.start < 65536 := m.outputBufferStart.toNat_lt
  show (msgSize _).toNat = _
  rw [msgSize_toNat (by omega) (by omega)]
  omega

theorem addHeader_buffer (h : w.bytes ≤ m.start) :
    (m.addHeader w value).buffer =
      write m.buffer (m.start - w.bytes) (w.encode value) := by
  have hlt : m.start < 65536 := m.outputBufferStart.toNat_lt
  show write m.buffer (msgSize _).toNat _ = _
  rw [msgSize_toNat (by omega) (by omega),
    show ((m.start : Int) - w.bytes).toNat = m.start - w.bytes by omega]

theorem addHeader_len (h : m.len + w.bytes < 65536) :
    (m.addHeader w value).len = m.len + w.bytes := by
  show (msgSize ((m.len : Int) + w.bytes)).toNat = _
  rw [msgSize_toNat (by omega) (by omega)]
  omega

/-- With room for the header the assertion holds. -/
theorem safe_addHeader (hsafe : m.Safe) (h : w.bytes ≤ m.start) (hstart : m.start ≤ 8)
    (hlen : m.len + w.bytes < 65536) : (m.addHeader w value).Safe := by
  have hstart' : (m.addHeader w value).start = m.start - w.bytes := addHeader_start h
  refine NetworkMessage.Safe.setLength (NetworkMessage.Safe.put
    (hsafe.log ?_) ?_) ?_ ?_
  · exact decide_eq_true h
  · rw [Width.length_encode]
    show (m.addHeader w value).start + w.bytes ≤ _
    rw [hstart']
    simp only [NETWORKMESSAGE_MAXSIZE]
    omega
  · show (0 : Int) ≤ (m.len : Int) + w.bytes
    omega
  · show (m.len : Int) + w.bytes < 65536
    omega

end

end OutputMessage

namespace NetworkMessage

theorem addPaddingBytes_eq (m : NetworkMessage) (n : Nat) :
    m.addPaddingBytes n =
      if m.canAdd n then (m.put m.pos (List.replicate n 0x33)).setLength (m.len + n)
      else m := by
  unfold addPaddingBytes
  cases m.canAdd n <;> rfl

end NetworkMessage

end LoginServer.Network

namespace LoginServer.Utils.Xtea

open LoginServer.Network
open LoginServer.Verified
open LoginServer.Verified.ByteMemory
open LoginServer.Verified.BlockLoop

/-- The message after the padding step of `encrypt`. -/
def padded (m : OutputMessage) : OutputMessage :=
  if m.len % 8 ≠ 0 then
    { m with toNetworkMessage := m.addPaddingBytes (8 - m.len % 8) }
  else m

/-- What the padding step does, in one formula for the three cases. -/
structure Pads (m m' : OutputMessage) (p : Nat) : Prop where
  buffer : m'.buffer = write m.buffer m.pos (List.replicate p 0x33)
  len : m'.len = m.len + p
  pos : m'.pos = m.pos
  start : m'.start = m.start
  safe : m.Safe → m'.Safe

theorem pads_padded {m : OutputMessage} (hlen : m.len < 65536 - 8) :
    Pads m (padded m)
      (if m.len % 8 ≠ 0 ∧ m.pos + (8 - m.len % 8) < MAX_BODY_LENGTH then
        8 - m.len % 8 else 0) := by
  have hnone : Pads m m 0 :=
    { buffer := (write_nil _ _).symm
      len := rfl
      pos := rfl
      start := rfl
      safe := id }
  unfold padded
  by_cases hmod : m.len % 8 ≠ 0
  · rw [if_pos hmod, NetworkMessage.addPaddingBytes_eq]
    by_cases hadd : m.canAdd (8 - m.len % 8) = true
    · have hroom := NetworkMessage.canAdd_iff.mp hadd
      rw [if_pos hadd, if_pos ⟨hmod, hroom⟩]
      rw [MAX_BODY_LENGTH_eq] at hroom
      refine
        { buffer := rfl
          len := ?_
          pos := rfl
          start := rfl
          safe := ?_ }
      · show (msgSize ((m.len : Int) + (8 - m.len % 8 : Nat))).toNat = _
        rw [msgSize_toNat (by omega) (by omega)]
        omega
      · intro hsafe
        refine (hsafe.put ?_).setLength (by omega) (by omega)
        rw [List.length_replicate]
        simp only [NETWORKMESSAGE_MAXSIZE]
        omega
    · have hroom : ¬ m.pos + (8 - m.len % 8) < MAX_BODY_LENGTH := fun h =>
        hadd (NetworkMessage.canAdd_iff.mpr h)
      rw [if_neg hadd, if_neg (fun h => hroom h.2)]
      exact hnone
  · rw [if_neg hmod, if_neg (fun h => hmod h.1)]
    exact hnone

/-- `encrypt` pads and then maps the blocks from the start on. -/
theorem encrypt_eq (k : Key) (m : OutputMessage) :
    encrypt k m =
      { padded m with
        buffer := write (padded m).buffer (padded m).start
          (mapBlocks 8 (encryptBlock k) (((padded m).len + 7) / 8)
            (read (padded m).buffer (padded m).start
              (8 * (((padded m).len + 7) / 8))))
        accesses :=
          .write (padded m).start (8 * (((padded m).len + 7) / 8)) ::
            .read (padded m).start (8 * (((padded m).len + 7) / 8)) ::
              (padded m).accesses } := by
  rw [← blockLoop_eq_write (length_encryptBlock k)]
  rfl

end LoginServer.Utils.Xtea

namespace LoginServer.Network

open LoginServer.Verified
open LoginServer.Verified.ByteMemory
open LoginServer.Verified.BlockLoop
open LoginServer.Utils

namespace OutputMessage

/-! ## The frame -/

/-- The two bytes of a length header. -/
def lengthBytes (n : Nat) : Bytes := Width.encode .u16 (BitVec.ofNat _ n)

/-- What the cipher runs over: inner length, body, padding. -/
def innerBytes (body : Bytes) : Bytes :=
  lengthBytes body.length ++ body ++ List.replicate (paddingLength body.length) 0x33

/-- The frame around a ciphertext. -/
def frameBytes (cipher : Bytes) : Bytes :=
  lengthBytes (cipher.length + 4) ++ Width.encode .u32 (adlerChecksum cipher) ++ cipher

@[simp] theorem length_lengthBytes (n : Nat) : (lengthBytes n).length = 2 :=
  Width.length_encode _ _

theorem length_innerBytes (body : Bytes) :
    (innerBytes body).length = body.length + 2 + paddingLength body.length := by
  simp [innerBytes]
  omega

/-- The message between the cipher and the outer headers. -/
structure Enciphered (m : OutputMessage) (cipher : Bytes) : Prop where
  start : m.start = 6
  len : m.len = cipher.length
  bytes : read m.buffer 6 cipher.length = cipher

/-- The two headers in front of a ciphertext, as they lie in the buffer. -/
private theorem read_frame {mem : Memory} {cipher : Bytes}
    (h : read mem 6 cipher.length = cipher) :
    read (write (write mem 2 (Width.encode .u32 (adlerChecksum cipher))) 0
      (lengthBytes (cipher.length + 4))) 0 (cipher.length + 6) = frameBytes cipher := by
  have hsum : (Width.encode .u32 (adlerChecksum cipher)).length = 4 :=
    Width.length_encode _ _
  have hlen := length_lengthBytes (cipher.length + 4)
  rw [show cipher.length + 6 = 2 + (4 + cipher.length) by omega, read_append,
    read_append, read_write_of_length hlen,
    read_write_disjoint (Or.inr (by omega)), read_write_of_length hsum,
    read_write_disjoint (Or.inr (by omega)), read_write_disjoint (Or.inr (by omega)),
    h, frameBytes, List.append_assoc]

/-- The two outer headers complete the frame. -/
theorem Enciphered.outputBytes {m : OutputMessage} {cipher : Bytes}
    (h : m.Enciphered cipher) (hlen : cipher.length < 65530) :
    m.addCryptoHeader.outputBytes = frameBytes cipher ∧ m.addCryptoHeader.start = 0 ∧
      m.addCryptoHeader.len = cipher.length + 6 := by
  obtain ⟨hstart, hmlen, hbytes⟩ := h
  let m1 : OutputMessage := { m with toNetworkMessage := m.log (.read m.start m.len) }
  let m2 := m1.addHeader .u32 (adlerChecksum cipher)
  have hheader : m.addCryptoHeader = m2.addHeader .u16 (BitVec.ofNat _ m2.len) := by
    show (m1.addHeader .u32 (adlerChecksum (read m.buffer m.start m.len))).addHeader .u16 _ = _
    rw [hstart, hmlen, hbytes]
    rfl
  have hstart1 : m1.start = 6 := hstart
  have hlen1 : m1.len = cipher.length := hmlen
  have hroom1 : Width.bytes .u32 ≤ m1.start := by
    rw [hstart1]
    decide
  have hstart2 : m2.start = 2 := by
    rw [addHeader_start hroom1, hstart1]
    rfl
  have hlen2 : m2.len = cipher.length + 4 := by
    have hfits : m1.len + Width.bytes .u32 < 65536 := by
      show m1.len + 4 < 65536
      omega
    rw [addHeader_len hfits, hlen1]
  have hbuffer2 : m2.buffer =
      write m.buffer 2 (Width.encode .u32 (adlerChecksum cipher)) := by
    rw [addHeader_buffer hroom1, hstart1]
    rfl
  have hroom2 : Width.bytes .u16 ≤ m2.start := by
    rw [hstart2]
  have hstart3 : (m2.addHeader .u16 (BitVec.ofNat _ m2.len)).start = 0 := by
    rw [addHeader_start hroom2, hstart2]
    rfl
  have hlen3 : (m2.addHeader .u16 (BitVec.ofNat _ m2.len)).len = cipher.length + 6 := by
    have hfits : m2.len + Width.bytes .u16 < 65536 := by
      show m2.len + 2 < 65536
      omega
    rw [addHeader_len hfits, hlen2]
    rfl
  have hbuffer3 : (m2.addHeader .u16 (BitVec.ofNat _ m2.len)).buffer =
      write (write m.buffer 2 (Width.encode .u32 (adlerChecksum cipher))) 0
        (lengthBytes (cipher.length + 4)) := by
    rw [addHeader_buffer hroom2, hstart2, hbuffer2, hlen2]
    rfl
  refine ⟨?_, hheader ▸ hstart3, hheader ▸ hlen3⟩
  rw [hheader, OutputMessage.outputBytes, hstart3, hlen3, hbuffer3]
  exact read_frame hbytes

theorem addCryptoHeader_pos (m : OutputMessage) : m.addCryptoHeader.pos = m.pos := by
  rfl

theorem safe_addCryptoHeader {m : OutputMessage} {cipher : Bytes}
    (h : m.Enciphered cipher) (hsafe : m.Safe) (hlen : cipher.length ≤ 24584) :
    m.addCryptoHeader.Safe := by
  obtain ⟨hstart, hmlen, -⟩ := h
  let m1 : OutputMessage := { m with toNetworkMessage := m.log (.read m.start m.len) }
  have hsafe1 : m1.Safe := by
    apply NetworkMessage.Safe.log hsafe
    simp only [Access.Safe, hstart, hmlen, NETWORKMESSAGE_MAXSIZE]
    omega
  have hstart1 : m1.start = 6 := hstart
  have hlen1 : m1.len = cipher.length := hmlen
  have hroom1 : Width.bytes .u32 ≤ m1.start := by
    rw [hstart1]
    decide
  have hfits1 : m1.len + Width.bytes .u32 < 65536 := by
    show m1.len + 4 < 65536
    omega
  let m2 := m1.addHeader .u32 (adlerChecksum (read m.buffer m.start m.len))
  have hsafe2 : m2.Safe := safe_addHeader hsafe1 hroom1 (by omega) hfits1
  have hstart2 : m2.start = 2 := by
    rw [addHeader_start hroom1, hstart1]
    rfl
  have hlen2 : m2.len = cipher.length + 4 := by
    rw [addHeader_len hfits1, hlen1]
  have hroom2 : Width.bytes .u16 ≤ m2.start := by
    rw [hstart2]
  have hsmall : m2.start ≤ 8 := by omega
  apply safe_addHeader hsafe2 hroom2 hsmall
  show m2.len + 2 < 65536
  omega

/-- The first header and the padding put the inner bytes in place. -/
structure Prepared (m : OutputMessage) (body : Bytes) : Prop where
  start : m.start = 6
  len : m.len = (innerBytes body).length
  pos : m.pos = 8 + body.length
  bytes : read m.buffer 6 (innerBytes body).length = innerBytes body

theorem Holds.prepared {m : OutputMessage} {body : Bytes} (h : m.Holds body) :
    (Xtea.padded m.writeMessageLength).Prepared body ∧
      (m.Safe → (Xtea.padded m.writeMessageLength).Safe) := by
  obtain ⟨hstart, hpos, hlen, hbytes, hroom⟩ := h
  rw [MAX_BODY_LENGTH_eq] at hroom
  have hheader : Width.bytes .u16 ≤ m.start := by
    rw [hstart]
    decide
  have hfits : m.len + Width.bytes .u16 < 65536 := by
    show m.len + 2 < 65536
    omega
  have hstart1 : m.writeMessageLength.start = 6 := by
    rw [writeMessageLength, addHeader_start hheader, hstart]
    rfl
  have hlen1 : m.writeMessageLength.len = body.length + 2 := by
    rw [writeMessageLength, addHeader_len hfits, hlen]
  have hpos1 : m.writeMessageLength.pos = 8 + body.length := hpos
  have hbuffer1 : m.writeMessageLength.buffer =
      write m.buffer 6 (lengthBytes body.length) := by
    rw [writeMessageLength, addHeader_buffer hheader, hstart, hlen]
    rfl
  have hpads := Xtea.pads_padded (m := m.writeMessageLength) (by omega)
  rw [hlen1, hpos1] at hpads
  change Xtea.Pads _ _ (paddingLength body.length) at hpads
  have htotal := length_innerBytes body
  refine ⟨?_, fun hsafe => hpads.safe (safe_addHeader hsafe hheader (by omega) hfits)⟩
  refine
    { start := hpads.start.trans hstart1
      len := by rw [hpads.len, hlen1, htotal]
      pos := hpads.pos.trans hpos1
      bytes := ?_ }
  -- length, body and padding lie side by side
  have hheadLen := length_lengthBytes body.length
  have hsplit : (innerBytes body).length =
      2 + (body.length + paddingLength body.length) := by omega
  have hlower : read (write m.buffer 6 (lengthBytes body.length)) 6 2 =
      lengthBytes body.length := read_write_of_length hheadLen
  have hbody : read (write m.buffer 6 (lengthBytes body.length)) 8 body.length =
      body := by
    rw [read_write_disjoint (Or.inr (by omega)), hbytes]
  rw [hsplit, hpads.buffer, hbuffer1, hpos1, read_append, read_append,
    read_write_disjoint (Or.inl (by omega)), hlower,
    read_write_disjoint (Or.inl (by omega)), hbody,
    show 6 + 2 + body.length = 8 + body.length by omega,
    read_write_of_length (by simp), innerBytes, List.append_assoc]

/-- The cipher runs over the inner bytes; only a body that was not padded
lets it reach beyond them. -/
theorem Prepared.enciphered (key : Xtea.Key) {m : OutputMessage} {body : Bytes}
    (h : (Xtea.padded m).Prepared body) :
    ∃ cipher, (Xtea.encrypt key m).Enciphered cipher ∧
      cipher.length = (innerBytes body).length ∧
      ((innerBytes body).length % 8 = 0 →
        cipher = mapBlocks 8 (Xtea.encryptBlock key) (cipher.length / 8)
          (innerBytes body)) := by
  obtain ⟨hstart, hlen, -, hbytes⟩ := h
  refine ⟨read (Xtea.encrypt key m).buffer 6 (innerBytes body).length, ?_,
    length_read _ _ _, ?_⟩
  · refine
      { start := ?_
        len := ?_
        bytes := by rw [length_read] }
    · rw [Xtea.encrypt_eq]
      exact hstart
    · rw [Xtea.encrypt_eq, length_read]
      exact hlen
  · intro hmod
    have hblocks : 8 * (((Xtea.padded m).len + 7) / 8) = (innerBytes body).length := by
      omega
    have hcount : ((Xtea.padded m).len + 7) / 8 = (innerBytes body).length / 8 := by
      omega
    rw [length_read, Xtea.encrypt_eq, hblocks, hcount, hstart, hbytes]
    apply read_write_of_length
    rw [length_mapBlocks (Xtea.length_encryptBlock key) _ _ (by omega)]
    omega

/-- What is left of a message that was sent. -/
structure Sent (m : OutputMessage) (body : Bytes) : Prop where
  start : m.start = 0
  pos : m.pos = 8 + body.length
  len : m.len = (innerBytes body).length + 6

/-- The bytes that go to the socket. -/
theorem encryptMessage_wire (key : Xtea.Key) {m : OutputMessage} {body : Bytes}
    (h : m.Holds body) :
    ∃ cipher, (encryptMessage key m).outputBytes = frameBytes cipher ∧
      (encryptMessage key m).Sent body ∧
      cipher.length = (innerBytes body).length ∧
      ((innerBytes body).length % 8 = 0 →
        cipher = mapBlocks 8 (Xtea.encryptBlock key) (cipher.length / 8)
          (innerBytes body)) := by
  have hprepared := h.prepared.1
  have hroom := h.room
  rw [MAX_BODY_LENGTH_eq] at hroom
  have htotal := length_innerBytes body
  have hpad := paddingLength_le body.length
  obtain ⟨cipher, henc, hlen, hmap⟩ := hprepared.enciphered key
  obtain ⟨houtput, hstart, hsentLen⟩ := henc.outputBytes (by omega)
  refine ⟨cipher, houtput, ?_, hlen, hmap⟩
  exact
    { start := hstart
      pos := by
        rw [encryptMessage, addCryptoHeader_pos, Xtea.encrypt_eq]
        exact hprepared.pos
      len := by
        rw [← hlen]
        exact hsentLen }

/-- Sending a message for the first time keeps every bound, and both kinds of
assertion hold. -/
theorem safe_encryptMessage (key : Xtea.Key) {m : OutputMessage} {body : Bytes}
    (h : m.Holds body) (hsafe : m.Safe) : (encryptMessage key m).Safe := by
  obtain ⟨hprepared, hpadded⟩ := h.prepared
  have hroom := h.room
  rw [MAX_BODY_LENGTH_eq] at hroom
  have htotal := length_innerBytes body
  have hpad := paddingLength_le body.length
  have hrange : (Xtea.padded m.writeMessageLength).start +
      8 * (((Xtea.padded m.writeMessageLength).len + 7) / 8) ≤
        NETWORKMESSAGE_MAXSIZE := by
    rw [hprepared.start, hprepared.len, htotal]
    simp only [NETWORKMESSAGE_MAXSIZE]
    by_cases hn : body.length = UNPADDED
    · rw [hn]
      decide
    · have hmod := mod_eight_of_ne (n := body.length)
        (by rw [MAX_BODY_LENGTH_eq]; omega) hn
      unfold UNPADDED at hn
      omega
  obtain ⟨cipher, henc, hlen, -⟩ := hprepared.enciphered key
  refine safe_addCryptoHeader henc ?_ (by omega)
  rw [Xtea.encrypt_eq]
  exact List.forall_mem_cons.mpr ⟨hrange, List.forall_mem_cons.mpr
    ⟨hrange, hpadded hsafe⟩⟩

end OutputMessage

end LoginServer.Network
