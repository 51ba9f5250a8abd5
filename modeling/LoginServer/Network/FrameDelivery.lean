import LoginServer.Network.Connection
import LoginServer.Network.EncryptedFrame

/-!
# A frame arrives

The two reads of one frame and what they leave in `m_msg`: whatever was
there before, the cursor is on the body, the length is that of the frame, and
the bytes behind the frame are the old ones.

## Main results

* `deliverHeader_of_accepted` — the size test.
* `delivered_deliver` — the message `parsePacket` starts from.
* `checksumMatches_iff` — the checksum test on a delivered frame.
-/

namespace LoginServer.Network

open LoginServer.Verified
open LoginServer.Verified.ByteMemory
open LoginServer.Utils
open OutputMessage (lengthBytes length_lengthBytes)

/-- The sizes `parseHeader` lets through. -/
def AcceptedSize (size : Nat) : Prop := 0 < size ∧ size < NETWORKMESSAGE_MAXSIZE - 16

instance (size : Nat) : Decidable (AcceptedSize size) :=
  inferInstanceAs (Decidable (_ ∧ _))

theorem decode_lengthBytes {n : Nat} (h : n < 65536) :
    LittleEndian.decode (lengthBytes n) = n := by
  have hvalue : (BitVec.ofNat (Width.bits .u16) n).toNat = n := by
    rw [BitVec.toNat_ofNat]
    exact Nat.mod_eq_of_lt h
  rw [lengthBytes, Width.encode, hvalue]
  exact LittleEndian.decode_encode_of_lt h

namespace Connection

/-- The first read of a frame completes, and its handler runs. -/
def deliverHeader (c : Connection) (header : Bytes) : Connection :=
  (c.receive .header header).parseHeader false {}

/-- Both reads of a frame complete; the second handler has not run yet. -/
def deliver (c : Connection) (frame : Bytes) : Connection :=
  (c.deliverHeader (frame.take 2)).receive (.body (frame.length - 2)) (frame.drop 2)

/-- The message after the size test has let a frame of `size` bytes in. -/
def headed (m : NetworkMessage) (size : Nat) : NetworkMessage :=
  (((m.put 0 (lengthBytes size)).log (.read 0 HEADER_LENGTH)).setLength
    ((size : Int) + HEADER_LENGTH)).getBodyBuffer

theorem getLengthHeader_put {m : NetworkMessage} {size : Nat} (h : size < 65536) :
    (m.put 0 (lengthBytes size)).getLengthHeader = size := by
  show LittleEndian.decode (read (write m.buffer 0 (lengthBytes size)) 0 2) = size
  rw [read_write_of_length (length_lengthBytes size), decode_lengthBytes h]

/-- An accepted header arms a read for exactly the announced bytes. -/
theorem deliverHeader_of_accepted (c : Connection) {size : Nat} (h : AcceptedSize size) :
    c.deliverHeader (lengthBytes size) =
      { c with
        readTimer := c.readTimer.cancel.arm
        msg := headed c.msg size
        reads := c.reads ++ [⟨.body size, c.socketOpen⟩] } := by
  obtain ⟨hpos, hlt⟩ := h
  simp only [NETWORKMESSAGE_MAXSIZE] at hlt
  have hsize : (c.msg.put 0 (lengthBytes size)).getLengthHeader = size :=
    getLengthHeader_put (by omega)
  have haccept : ¬ (size = 0 ∨ size ≥ NETWORKMESSAGE_MAXSIZE - 16) := by
    simp only [NETWORKMESSAGE_MAXSIZE]
    omega
  show parseHeader { c with msg := c.msg.put 0 (lengthBytes size) } false {} = _
  unfold parseHeader
  simp only [hsize, Bool.false_eq_true, if_false, if_neg haccept]
  rfl

/-- The message `m` holds the frame of `body`, in what was `old` before. -/
structure Delivered (old m : NetworkMessage) (body : Bytes) : Prop where
  pos : m.pos = 2
  len : m.len = body.length + 2
  bytes : read m.buffer 2 body.length = body
  behind : ∀ i, body.length + 2 ≤ i → m.buffer i = old.buffer i
  overrun : m.overrun = old.overrun

theorem delivered_deliver (c : Connection) {body : Bytes} (h : AcceptedSize body.length) :
    Delivered c.msg (c.deliver (lengthBytes body.length ++ body)).msg body := by
  have hlen := length_lengthBytes body.length
  have hlt := h.2
  simp only [NETWORKMESSAGE_MAXSIZE] at hlt
  have hmsg : (c.deliver (lengthBytes body.length ++ body)).msg =
      (headed c.msg body.length).put 2 body := by
    unfold deliver
    rw [List.take_left' hlen, List.drop_left' hlen, deliverHeader_of_accepted c h]
    rfl
  rw [hmsg]
  constructor
  · rfl
  · show (msgSize _).toNat = _
    simp only [HEADER_LENGTH]
    rw [msgSize_toNat (by omega) (by omega)]
    omega
  · exact read_write_of_length rfl
  · intro i hi
    show write (write c.msg.buffer 0 (lengthBytes body.length)) 2 body i = c.msg.buffer i
    rw [write_of_ge (by omega), write_of_ge (by omega)]
  · rfl

end Connection

/-! ## The checksum test -/

/-- The first four bytes of a body are the sum of the rest. -/
def BodyChecksum (body : Bytes) : Prop :=
  Width.decode .u32 (body.take 4) = adlerChecksum (body.drop 4)

instance (body : Bytes) : Decidable (BodyChecksum body) :=
  inferInstanceAs (Decidable (_ = _))

/-- On a body with something behind the four bytes, the test of `parsePacket`
is the test on the body. -/
theorem checksumMatches_iff {old m : NetworkMessage} {body : Bytes}
    (h : Connection.Delivered old m body) (hlen : 4 < body.length) :
    m.ChecksumMatches ↔ BodyChecksum body := by
  have hmlen := h.len
  have hhead : read m.buffer 2 4 = body.take 4 := by
    have hsub := read_sub m.buffer 2 (show 0 + 4 ≤ body.length by omega)
    rw [h.bytes] at hsub
    exact hsub
  have htail : read m.buffer 6 (m.len - 6) = body.drop 4 := by
    have hsub := read_sub m.buffer 2
      (show 4 + (body.length - 4) ≤ body.length by omega)
    rw [h.bytes, List.take_of_length_le (by rw [List.length_drop])] at hsub
    rw [show m.len - 6 = body.length - 4 by omega]
    exact hsub
  unfold NetworkMessage.ChecksumMatches NetworkMessage.bodyChecksum BodyChecksum
  rw [hhead, htail, if_pos (by omega)]

end LoginServer.Network
