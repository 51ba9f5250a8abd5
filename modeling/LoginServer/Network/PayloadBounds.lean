import LoginServer.Network.WireRoundTrip

/-!
# Where the payload of a packet ends

After `decrypt` the length is that of the inner payload, and `canRead` adds
eight to it: the place of a payload behind a length header, a checksum and an
inner length.  A packet whose checksum did not match was stepped back over,
so its inner length lies at index 2 and its payload starts at index 4, and
the same eight let a reader run four bytes past the end.

## Main results

* `views_matched` — behind a checksum the getters read the payload.
* `not_readsPayload_of_steppedBack` — without one they read more.
* `payload_reads_iff` — which packets are read within their payload.
-/

namespace LoginServer.Network

open LoginServer.Verified
open LoginServer.Verified.ByteMemory
open LoginServer.Verified.BoundedReader
open LoginServer.Utils

/-- The bytes an inner length at `start` announces. -/
def innerPayload (m : NetworkMessage) (start : Nat) : Bytes :=
  read m.buffer (start + 2) (LittleEndian.decode (read m.buffer start 2))

/-- Every sequence of getters reads the payload and nothing else: what is not
in it counts as zero and sets the overrun flag. -/
def ReadsPayload (m : NetworkMessage) (payload : Bytes) : Prop :=
  ∀ calls : List ReadCall,
    (ReadCall.runAll calls m).1 =
        (ReadCall.specAll calls { data := payload, overrun := m.overrun }).1 ∧
      (ReadCall.runAll calls m).2.overrun =
        (ReadCall.specAll calls { data := payload, overrun := m.overrun }).2.overrun

/-- What `decrypt` leaves behind when it accepts. -/
structure Accepts (key : Xtea.Key) (m : NetworkMessage) : Prop where
  fits : Xtea.innerLength key m + 8 ≤ m.len
  pos : (Xtea.decrypt key m).2.pos = m.pos + 2
  len : (Xtea.decrypt key m).2.len = Xtea.innerLength key m
  buffer : (Xtea.decrypt key m).2.buffer = (Xtea.deciphered key m).buffer

theorem accepts_of_true {key : Xtea.Key} {m : NetworkMessage} (hpos : m.pos ≤ 6)
    (h : (Xtea.decrypt key m).1 = true) : Accepts key m := by
  have hlt := m.len_lt
  rw [Xtea.decrypt_eq hpos] at h
  by_cases hmod : m.len % 8 ≠ 6
  · rw [if_pos hmod] at h
    cases h
  · rw [if_neg hmod] at h
    by_cases hfits : Xtea.innerLength key m + 8 > m.len
    · rw [if_pos hfits] at h
      cases h
    · have hresult : Xtea.decrypt key m =
          (true, ((Xtea.deciphered key m).advance 2).setLength (Xtea.innerLength key m)) := by
        rw [Xtea.decrypt_eq hpos, if_neg hmod, if_neg hfits]
      have hstart : (Xtea.deciphered key m).pos = m.pos := rfl
      rw [not_lt] at hfits
      constructor
      · exact hfits
      · rw [hresult]
        show ((Xtea.deciphered key m).advance 2).pos = _
        rw [NetworkMessage.advance_pos (by omega), hstart]
      · rw [hresult]
        show (msgSize _).toNat = _
        rw [msgSize_toNat (by omega) (by omega)]
        omega
      · rw [hresult]
        rfl

section
variable {key : Xtea.Key} {m : NetworkMessage}

theorem innerPayload_eq (h : Accepts key m) :
    innerPayload (Xtea.decrypt key m).2 m.pos =
      read (Xtea.decrypt key m).2.buffer (m.pos + 2) (Xtea.innerLength key m) := by
  rw [innerPayload, h.buffer]
  rfl

theorem length_innerPayload (h : Accepts key m) :
    (innerPayload (Xtea.decrypt key m).2 m.pos).length = Xtea.innerLength key m := by
  rw [innerPayload_eq h, length_read]

/-- Behind a checksum the constant of `canRead` is the start of the payload. -/
theorem views_matched (h : Accepts key m) (hpos : m.pos = 6) (hlen : m.len < 24576) :
    Views (Xtea.decrypt key m).2 8
      { data := innerPayload (Xtea.decrypt key m).2 m.pos
        overrun := (Xtea.decrypt key m).2.overrun } := by
  have hfits := h.fits
  have hlength := length_innerPayload h
  constructor
  · constructor
    · show read _ 8 (innerPayload (Xtea.decrypt key m).2 m.pos).length = _
      rw [hlength, innerPayload_eq h, hpos]
    · exact Nat.zero_le _
  · rw [h.pos, hpos]
    rfl
  · rw [h.len]
    show _ = 8 + (innerPayload (Xtea.decrypt key m).2 m.pos).length
    omega
  · rfl
  · show 8 + (innerPayload (Xtea.decrypt key m).2 m.pos).length < _
    rw [hlength]
    simp only [NETWORKMESSAGE_MAXSIZE]
    omega

/-- A payload that starts at index 4 can be left: a string one byte longer
than the payload is read. -/
theorem not_readsPayload_of_steppedBack (h : Accepts key m) (hpos : m.pos = 2)
    (hlen : m.len < 24576) :
    ¬ ReadsPayload (Xtea.decrypt key m).2
      (innerPayload (Xtea.decrypt key m).2 m.pos) := by
  have hfits := h.fits
  have hlength := length_innerPayload h
  intro hreads
  let n : BitVec 16 := BitVec.ofNat 16 (Xtea.innerLength key m + 1)
  have hn : n.toNat = Xtea.innerLength key m + 1 := by
    rw [BitVec.toNat_ofNat]
    exact Nat.mod_eq_of_lt (by omega)
  have hne : n ≠ 0 := by
    intro hzero
    rw [hzero] at hn
    simp at hn
  have hreadable : (Xtea.decrypt key m).2.Readable (Xtea.innerLength key m + 1) := by
    unfold NetworkMessage.Readable
    rw [h.pos, h.len, hpos]
    simp only [NETWORKMESSAGE_MAXSIZE]
    omega
  have hcode : ((Xtea.decrypt key m).2.getString n).1.length =
      Xtea.innerLength key m + 1 := by
    rw [NetworkMessage.getString_eq, if_neg hne, hn, NetworkMessage.getChars,
      if_pos hreadable, length_read]
  have hspec : (ReadCall.takeString n
      { data := innerPayload (Xtea.decrypt key m).2 m.pos
        overrun := (Xtea.decrypt key m).2.overrun }).1 = [] := by
    rw [ReadCall.takeString, if_neg hne, Reader.take_of_not_has]
    show ¬ 0 + n.toNat ≤ (innerPayload (Xtea.decrypt key m).2 m.pos).length
    omega
  have hsame := List.cons.inj (hreads [.getString n]).1
  have hvalue := ReadValue.chars.inj hsame.1
  rw [hspec] at hvalue
  rw [hvalue] at hcode
  simp at hcode

end

/-- The message `Protocol::parsePacket` decrypts, for a frame around `body`. -/
def strippedMessage (c : Connection) (body : Bytes) : NetworkMessage :=
  (c.deliver (OutputMessage.lengthBytes body.length ++ body)).msg.stripChecksum

/-- The reads of an accepted packet stay in its payload exactly when its
checksum matched. -/
theorem payload_reads_iff (c : Connection) (body : Bytes)
    (hsize : AcceptedSize body.length)
    (haccepts : (Xtea.decrypt c.protocol.key (strippedMessage c body)).1 = true) :
    ReadsPayload (Xtea.decrypt c.protocol.key (strippedMessage c body)).2
        (innerPayload (Xtea.decrypt c.protocol.key (strippedMessage c body)).2
          (strippedMessage c body).pos) ↔
      BodyChecksum body := by
  have hdelivered := Connection.delivered_deliver c hsize
  have hsizeLt := hsize.2
  simp only [NETWORKMESSAGE_MAXSIZE] at hsizeLt
  have hlen : (strippedMessage c body).len = body.length + 2 := by
    rw [strippedMessage, NetworkMessage.stripChecksum_len hdelivered.pos, hdelivered.len]
  have hpos : (strippedMessage c body).pos =
      if (c.deliver (OutputMessage.lengthBytes body.length ++ body)).msg.ChecksumMatches
      then 6 else 2 :=
    NetworkMessage.stripChecksum_pos hdelivered.pos
  have hle : (strippedMessage c body).pos ≤ 6 := by
    rw [hpos]
    split <;> decide
  have hlong : 4 < body.length := by
    by_contra hshort
    rw [Xtea.decrypt_eq hle] at haccepts
    by_cases hmod : (strippedMessage c body).len % 8 ≠ 6
    · rw [if_pos hmod] at haccepts
      cases haccepts
    · rw [if_neg hmod, if_pos (by omega)] at haccepts
      cases haccepts
  have haccepted := accepts_of_true hle haccepts
  have hmatches := checksumMatches_iff hdelivered hlong
  constructor
  · intro hreads
    by_contra hmismatch
    rw [if_neg (fun h => hmismatch (hmatches.mp h))] at hpos
    exact not_readsPayload_of_steppedBack haccepted hpos (by omega) hreads
  · intro hmatch calls
    rw [if_pos (hmatches.mpr hmatch)] at hpos
    obtain ⟨hvalues, hviews⟩ := (views_matched haccepted hpos (by omega)).runAll calls
    exact ⟨hvalues, hviews.overrun⟩

/-- Two payload bytes under the zero key, with their checksum. -/
def checkedBody : Bytes :=
  let cipher := Xtea.encryptBlock (Vector.replicate 4 0) [2, 0, 104, 105, 51, 51, 51, 51]
  Width.encode .u32 (adlerChecksum cipher) ++ cipher

theorem payload_reads_sample :
    AcceptedSize checkedBody.length ∧
      (Xtea.decrypt sampleReceiver.protocol.key
        (strippedMessage sampleReceiver checkedBody)).1 = true ∧
      ReadsPayload
        (Xtea.decrypt sampleReceiver.protocol.key
          (strippedMessage sampleReceiver checkedBody)).2
        (innerPayload
          (Xtea.decrypt sampleReceiver.protocol.key
            (strippedMessage sampleReceiver checkedBody)).2
          (strippedMessage sampleReceiver checkedBody).pos) := by
  have hsize : AcceptedSize checkedBody.length := by decide +kernel
  have haccepts : (Xtea.decrypt sampleReceiver.protocol.key
      (strippedMessage sampleReceiver checkedBody)).1 = true := by
    decide +kernel
  have hmatch : BodyChecksum checkedBody := by decide +kernel
  exact ⟨hsize, haccepts,
    (payload_reads_iff sampleReceiver checkedBody hsize haccepts).mpr hmatch⟩

/-- The same two payload bytes without a checksum. -/
def uncheckedBody : Bytes :=
  Xtea.encryptBlock (Vector.replicate 4 0) [2, 0, 104, 105, 51, 51, 51, 51] ++ [7, 7, 7, 7]

/-- The packet is accepted, and its reads leave the payload. -/
theorem unchecked_reads_past_payload :
    AcceptedSize uncheckedBody.length ∧
      (Xtea.decrypt sampleReceiver.protocol.key
        (strippedMessage sampleReceiver uncheckedBody)).1 = true ∧
      ¬ ReadsPayload
        (Xtea.decrypt sampleReceiver.protocol.key
          (strippedMessage sampleReceiver uncheckedBody)).2
        (innerPayload
          (Xtea.decrypt sampleReceiver.protocol.key
            (strippedMessage sampleReceiver uncheckedBody)).2
          (strippedMessage sampleReceiver uncheckedBody).pos) := by
  have hsize : AcceptedSize uncheckedBody.length := by decide +kernel
  have hstripped : (strippedMessage sampleReceiver uncheckedBody).pos = 2 ∧
      (strippedMessage sampleReceiver uncheckedBody).len < 24576 := by
    decide +kernel
  have haccepts : (Xtea.decrypt sampleReceiver.protocol.key
      (strippedMessage sampleReceiver uncheckedBody)).1 = true := by
    decide +kernel
  have haccepted := accepts_of_true (by rw [hstripped.1]; decide) haccepts
  exact ⟨hsize, haccepts,
    not_readsPayload_of_steppedBack haccepted hstripped.1 hstripped.2⟩

end LoginServer.Network
