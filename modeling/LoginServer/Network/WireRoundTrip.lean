import LoginServer.Network.FrameDelivery
import LoginServer.Network.PayloadReads

/-!
# From the adders to the getters

A message is filled field by field, encrypted, sent, received by a connection
with the same key and read back field by field.  The layers undo each other
from the outside in: the length header, the checksum, the cipher, the inner
length, the fields.

The one body that does not come through is the longest: its padding is
refused, so the cipher text is not a multiple of eight bytes and `decrypt`
turns it away.

## Main results

* `Field.addAll_holds` — the accepted fields, laid end to end, are the body.
* `decrypt_frame` — the receiver's view of the body.
* `wire_round_trip_iff` — which bodies come through.
-/

namespace LoginServer.Network

open LoginServer.Verified
open LoginServer.Verified.ByteMemory
open LoginServer.Verified.BlockLoop
open LoginServer.Verified.BoundedReader
open LoginServer.Utils

/-- One call of an adder. -/
inductive Field where
  | byte (value : UInt8)
  | int (w : Width) (value : w.Value)
  | bytes (value : Bytes)
  | string (value : Bytes)

namespace Field

def addTo (m : OutputMessage) : Field → OutputMessage
  | .byte value => m.addByte value
  | .int w value => m.add w value
  | .bytes value => m.addBytes value
  | .string value => m.addString value

def addAll (fields : List Field) (m : OutputMessage) : OutputMessage :=
  fields.foldl addTo m

/-- The guards of the adder let the field in. -/
def Accepted (m : OutputMessage) : Field → Prop
  | .byte _ => m.canAdd 1 = true
  | .int w _ => m.canAdd w.bytes = true
  | .bytes value => m.canAdd value.length = true ∧ value.length ≤ 8192
  | .string value => m.canAdd (value.length + 2) = true ∧ value.length ≤ 8192

/-- Every field is accepted where it is added. -/
def AllAccepted : List Field → OutputMessage → Prop
  | [], _ => True
  | field :: fields, m => field.Accepted m ∧ AllAccepted fields (field.addTo m)

def encode : Field → Bytes
  | .byte value => [value]
  | .int w value => w.encode value
  | .bytes value => value
  | .string value => OutputMessage.lengthBytes value.length ++ value

def encodeAll (fields : List Field) : Bytes := fields.flatMap encode

/-- `Reads fields calls values`: the calls read the fields back, and these
are the values.  Raw bytes have no length in the message; they are read one
by one, or as a string of the known length. -/
inductive Reads : List Field → List ReadCall → List ReadValue → Prop where
  | nil : Reads [] [] []
  | byte {fields calls values} (value : UInt8) :
      Reads fields calls values →
        Reads (.byte value :: fields) (.getByte :: calls) (.byte value :: values)
  | int {fields calls values} (w : Width) (value : w.Value) :
      Reads fields calls values →
        Reads (.int w value :: fields) (.get w :: calls) (.int w value :: values)
  | string {fields calls values} (value : Bytes) :
      Reads fields calls values →
        Reads (.string value :: fields) (.getString 0 :: calls) (.chars value :: values)
  | bytes {fields calls values} (value : Bytes) :
      Reads fields calls values →
        Reads (.bytes value :: fields) (value.map (fun _ => .getByte) ++ calls)
          (value.map .byte ++ values)
  | chars {fields calls values} (value : Bytes) (n : BitVec 16) :
      n ≠ 0 → n.toNat = value.length → Reads fields calls values →
        Reads (.bytes value :: fields) (.getString n :: calls) (.chars value :: values)

/-! ## Laying the fields down -/

theorem addTo_holds {m : OutputMessage} {body : Bytes} (h : m.Holds body) (field : Field)
    (haccepted : field.Accepted m) : (field.addTo m).Holds (body ++ field.encode) := by
  cases field with
  | byte value =>
      have hadd : m.canAdd 1 = true := haccepted
      have heq : Field.addTo m (.byte value) = m.update fun m => m.append [value] := by
        show { m with toNetworkMessage := m.toNetworkMessage.addByte value } = _
        rw [NetworkMessage.addByte_eq, if_pos hadd]
        rfl
      rw [heq]
      exact h.append [value] (NetworkMessage.canAdd_iff.mp hadd)
  | int w value =>
      have hadd : m.canAdd w.bytes = true := haccepted
      have heq : Field.addTo m (.int w value) =
          m.update fun m => m.append (w.encode value) := by
        show { m with toNetworkMessage := m.toNetworkMessage.add w value } = _
        rw [NetworkMessage.add_eq, if_pos hadd]
        rfl
      rw [heq]
      apply h.append (w.encode value)
      rw [Width.length_encode]
      exact NetworkMessage.canAdd_iff.mp hadd
  | bytes value =>
      have hadd : m.canAdd value.length = true ∧ value.length ≤ 8192 := haccepted
      have heq : Field.addTo m (.bytes value) = m.update fun m => m.append value := by
        show { m with toNetworkMessage := m.toNetworkMessage.addBytes value } = _
        rw [NetworkMessage.addBytes_eq, if_pos hadd]
        rfl
      rw [heq]
      exact h.append value (NetworkMessage.canAdd_iff.mp hadd.1)
  | string value =>
      have hadd : m.canAdd (value.length + 2) = true ∧ value.length ≤ 8192 := haccepted
      have heq : Field.addTo m (.string value) =
          (m.update fun m => m.append (OutputMessage.lengthBytes value.length)).update
            fun m => m.append value := by
        show { m with toNetworkMessage := m.toNetworkMessage.addString value } = _
        rw [NetworkMessage.addString_eq, if_pos hadd]
        rfl
      have hroom := NetworkMessage.canAdd_iff.mp hadd.1
      have hheadLen := OutputMessage.length_lengthBytes value.length
      rw [MAX_BODY_LENGTH_eq] at hroom
      have hlength := h.append (OutputMessage.lengthBytes value.length)
        (by rw [MAX_BODY_LENGTH_eq]; omega)
      rw [heq, encode, ← List.append_assoc]
      apply hlength.append value
      have hpos := hlength.pos
      rw [List.length_append, hheadLen] at hpos
      have hpos' := h.pos
      rw [hpos, MAX_BODY_LENGTH_eq]
      omega

/-- The accepted fields, laid end to end, are the body. -/
theorem addAll_holds (fields : List Field) {m : OutputMessage} {body : Bytes}
    (h : m.Holds body) (haccepted : AllAccepted fields m) :
    (addAll fields m).Holds (body ++ encodeAll fields) := by
  induction fields generalizing m body with
  | nil =>
      rw [encodeAll, List.flatMap_nil, List.append_nil]
      exact h
  | cons field fields ih =>
      have hrest := ih (addTo_holds h field haccepted.1) haccepted.2
      rw [encodeAll, List.flatMap_cons, ← List.append_assoc]
      exact hrest

/-- The length prefix of a string that was accepted is its length. -/
theorem length_lt_of_accepted (fields : List Field) {m : OutputMessage}
    (haccepted : AllAccepted fields m) :
    ∀ value, Field.string value ∈ fields → value.length < 65536 := by
  induction fields generalizing m with
  | nil =>
      intro value hmem
      cases hmem
  | cons field fields ih =>
      intro value hmem
      rcases List.mem_cons.mp hmem with rfl | hmem
      · have := haccepted.1.2
        omega
      · exact ih haccepted.2 value hmem

/-! ## Reading the fields back -/

theorem toNat_decode_lengthBytes {n : Nat} (h : n < 65536) :
    (Width.decode .u16 (OutputMessage.lengthBytes n)).toNat = n := by
  rw [OutputMessage.lengthBytes, Width.decode_encode, BitVec.toNat_ofNat]
  exact Nat.mod_eq_of_lt h

private theorem specAll_append (xs ys : List ReadCall) (r : Reader) :
    ReadCall.specAll (xs ++ ys) r =
      ((ReadCall.specAll xs r).1 ++ (ReadCall.specAll ys (ReadCall.specAll xs r).2).1,
        (ReadCall.specAll ys (ReadCall.specAll xs r).2).2) := by
  induction xs generalizing r with
  | nil => rfl
  | cons x xs ih => simp only [List.cons_append, ReadCall.specAll, ih]

/-- A string of bytes, read one by one. -/
private theorem specAll_bytes (bytes ys : List UInt8) {r : Reader}
    (h : r.rest = bytes ++ ys) (hoffset : r.offset ≤ r.data.length) :
    (ReadCall.specAll (bytes.map fun _ => .getByte) r).1 = bytes.map .byte ∧
      (ReadCall.specAll (bytes.map fun _ => .getByte) r).2.rest = ys ∧
      (ReadCall.specAll (bytes.map fun _ => .getByte) r).2.offset ≤
        (ReadCall.specAll (bytes.map fun _ => .getByte) r).2.data.length ∧
      (ReadCall.specAll (bytes.map fun _ => .getByte) r).2.overrun = r.overrun := by
  induction bytes generalizing r with
  | nil => exact ⟨rfl, h, hoffset, rfl⟩
  | cons b bytes ih =>
      obtain ⟨hhead, hrest, hoff, hover⟩ := Reader.take_append [b] h hoffset
      obtain ⟨hvalues, hrest', hoff', hover'⟩ := ih hrest hoff
      refine ⟨?_, hrest', hoff', hover'.trans hover⟩
      show ReadValue.byte ((r.take 1).1.headD 0) :: _ = _
      rw [show (r.take 1).1 = [b] from hhead]
      exact congrArg _ hvalues

/-- The reader gives back what was laid down. -/
theorem specAll_fields {fields : List Field} {calls : List ReadCall}
    {values : List ReadValue} (hreads : Reads fields calls values)
    (hfits : ∀ value, Field.string value ∈ fields → value.length < 65536)
    (ys : Bytes) (r : Reader) (h : r.rest = encodeAll fields ++ ys)
    (hoffset : r.offset ≤ r.data.length) :
    (ReadCall.specAll calls r).1 = values ∧
      (ReadCall.specAll calls r).2.overrun = r.overrun := by
  induction hreads generalizing r with
  | nil => exact ⟨rfl, rfl⟩
  | byte value _ ih =>
      rw [encodeAll, List.flatMap_cons, List.append_assoc] at h
      obtain ⟨hhead, hrest, hoff, hover⟩ := Reader.take_append [value] h hoffset
      obtain ⟨hvalues, hover'⟩ :=
        ih (fun v hv => hfits v (List.mem_cons_of_mem _ hv)) _ hrest hoff
      refine ⟨?_, hover'.trans hover⟩
      show ReadValue.byte ((r.take 1).1.headD 0) :: _ = _
      rw [show (r.take 1).1 = [value] from hhead]
      exact congrArg _ hvalues
  | int w value _ ih =>
      rw [encodeAll, List.flatMap_cons, List.append_assoc] at h
      obtain ⟨hhead, hrest, hoff, hover⟩ := Reader.take_append _ h hoffset
      have hlen : (encode (.int w value)).length = w.bytes := Width.length_encode _ _
      rw [hlen] at hhead hrest hoff hover
      obtain ⟨hvalues, hover'⟩ :=
        ih (fun v hv => hfits v (List.mem_cons_of_mem _ hv)) _ hrest hoff
      refine ⟨?_, hover'.trans hover⟩
      show ReadValue.int w (w.decode (r.take w.bytes).1) :: _ = _
      rw [hhead, show w.decode (encode (.int w value)) = value from w.decode_encode value]
      exact congrArg _ hvalues
  | string value _ ih =>
      rw [encodeAll, List.flatMap_cons, List.append_assoc] at h
      have hlt := hfits value List.mem_cons_self
      obtain ⟨hhead, hrest, hoff, hover⟩ := Reader.take_append
        (OutputMessage.lengthBytes value.length)
        (by rw [h, encode, List.append_assoc]) hoffset
      rw [OutputMessage.length_lengthBytes] at hhead hrest hoff hover
      obtain ⟨hhead', hrest', hoff', hover''⟩ := Reader.take_append _ hrest hoff
      have hstring : ReadCall.takeString 0 r = (r.take 2).2.take value.length := by
        show (r.take 2).2.take (Width.decode .u16 (r.take 2).1).toNat = _
        rw [hhead, toNat_decode_lengthBytes hlt]
      obtain ⟨hvalues, hover'⟩ :=
        ih (fun v hv => hfits v (List.mem_cons_of_mem _ hv)) _ hrest' hoff'
      constructor
      · show ReadValue.chars (ReadCall.takeString 0 r).1 ::
          (ReadCall.specAll _ (ReadCall.takeString 0 r).2).1 = _
        rw [hstring, hhead', hvalues]
      · show (ReadCall.specAll _ (ReadCall.takeString 0 r).2).2.overrun = _
        rw [hstring, hover', hover'', hover]
  | bytes value _ ih =>
      rw [encodeAll, List.flatMap_cons, List.append_assoc] at h
      obtain ⟨hbytes, hrest, hoff, hover⟩ := specAll_bytes value _ h hoffset
      obtain ⟨hvalues, hover'⟩ :=
        ih (fun v hv => hfits v (List.mem_cons_of_mem _ hv)) _ hrest hoff
      rw [specAll_append]
      exact ⟨congrArg₂ _ hbytes hvalues, hover'.trans hover⟩
  | chars value n hne hn _ ih =>
      rw [encodeAll, List.flatMap_cons, List.append_assoc] at h
      obtain ⟨hhead, hrest, hoff, hover⟩ := Reader.take_append _ h hoffset
      have hstring : ReadCall.takeString n r = r.take value.length := by
        rw [ReadCall.takeString, if_neg hne, hn]
      obtain ⟨hvalues, hover'⟩ :=
        ih (fun v hv => hfits v (List.mem_cons_of_mem _ hv)) _ hrest hoff
      constructor
      · show ReadValue.chars (ReadCall.takeString n r).1 ::
          (ReadCall.specAll _ (ReadCall.takeString n r).2).1 = _
        rw [hstring, show (r.take value.length).1 = value from hhead]
        exact congrArg _ hvalues
      · show (ReadCall.specAll _ (ReadCall.takeString n r).2).2.overrun = _
        rw [hstring]
        exact hover'.trans hover

end Field

/-! ## The receiver -/

/-- The inner length in front of the body. -/
theorem take_innerBytes (body : Bytes) :
    (OutputMessage.innerBytes body).take 2 = OutputMessage.lengthBytes body.length := by
  rw [OutputMessage.innerBytes, List.append_assoc,
    List.take_left' (OutputMessage.length_lengthBytes _)]

theorem drop_innerBytes (body : Bytes) :
    ((OutputMessage.innerBytes body).drop 2).take body.length = body := by
  rw [OutputMessage.innerBytes, List.append_assoc,
    List.drop_left' (OutputMessage.length_lengthBytes _), List.take_left' rfl]

/-- `decrypt` on a frame that lies stripped in the buffer gives the reader
over the body. -/
theorem decrypt_frame (key : Xtea.Key) {m : NetworkMessage} {body : Bytes}
    (hroom : 8 + body.length < MAX_BODY_LENGTH) (hbody : body.length ≠ UNPADDED)
    (hpos : m.pos = 6) (hlen : m.len = (OutputMessage.innerBytes body).length + 6)
    (hcipher : read m.buffer 6 (OutputMessage.innerBytes body).length =
      mapBlocks 8 (Xtea.encryptBlock key)
        ((OutputMessage.innerBytes body).length / 8) (OutputMessage.innerBytes body)) :
    (Xtea.decrypt key m).1 = true ∧ (Xtea.decrypt key m).2.len = body.length ∧
      Views (Xtea.decrypt key m).2 8 { data := body, overrun := m.overrun } := by
  have htotal := OutputMessage.length_innerBytes body
  have hmod := mod_eight_of_ne hroom hbody
  rw [MAX_BODY_LENGTH_eq] at hroom
  have hblocks : (OutputMessage.innerBytes body).length =
      8 * ((OutputMessage.innerBytes body).length / 8) := by
    omega
  -- the cipher is undone, and the inner bytes are back in place
  have hplain : Xtea.plaintext key m = OutputMessage.innerBytes body := by
    rw [Xtea.plaintext, hpos, hlen, Nat.add_sub_cancel, hcipher]
    exact mapBlocks_inverse (Xtea.length_encryptBlock key)
      (fun _ h => Xtea.decryptBlock_encryptBlock key h) _ _ hblocks
  have hbuffer : (Xtea.deciphered key m).buffer =
      write m.buffer 6 (OutputMessage.innerBytes body) := by
    show write m.buffer m.pos (Xtea.plaintext key m) = _
    rw [hplain, hpos]
  have hread : read (Xtea.deciphered key m).buffer 6 (OutputMessage.innerBytes body).length =
      OutputMessage.innerBytes body := by
    rw [hbuffer, read_write_self]
  have hinner : Xtea.innerLength key m = body.length := by
    have hsub := read_sub (Xtea.deciphered key m).buffer 6
      (show 0 + 2 ≤ (OutputMessage.innerBytes body).length by omega)
    rw [hread, List.drop_zero, take_innerBytes] at hsub
    rw [Xtea.innerLength, hpos]
    exact (congrArg LittleEndian.decode hsub).trans (decode_lengthBytes (by omega))
  have hpayload : read (Xtea.deciphered key m).buffer 8 body.length = body := by
    have hsub := read_sub (Xtea.deciphered key m).buffer 6
      (show 2 + body.length ≤ (OutputMessage.innerBytes body).length by omega)
    rw [hread, drop_innerBytes] at hsub
    exact hsub
  have hresult : Xtea.decrypt key m =
      (true, ((Xtea.deciphered key m).advance 2).setLength body.length) := by
    rw [Xtea.decrypt_eq (by omega), if_neg (by omega), hinner, if_neg (by omega)]
  have hlength : (((Xtea.deciphered key m).advance 2).setLength body.length).len =
      body.length := by
    show (msgSize _).toNat = _
    rw [msgSize_toNat (by omega) (by omega)]
    omega
  have hcursor : ((Xtea.deciphered key m).advance 2).pos = 8 := by
    have hstart : (Xtea.deciphered key m).pos = 6 := hpos
    rw [NetworkMessage.advance_pos (by omega), hstart]
  rw [hresult]
  refine ⟨rfl, hlength, ?_⟩
  constructor
  · exact ⟨hpayload, Nat.zero_le _⟩
  · exact hcursor
  · show (((Xtea.deciphered key m).advance 2).setLength body.length).len + 8 =
      8 + body.length
    omega
  · rfl
  · show 8 + body.length < NETWORKMESSAGE_MAXSIZE
    simp only [NETWORKMESSAGE_MAXSIZE]
    omega

/-- The longest body is turned away, whatever its bytes. -/
theorem decrypt_unpadded (key : Xtea.Key) {m : NetworkMessage} (hpos : m.pos ≤ 6)
    (hlen : m.len = UNPADDED + 2 + paddingLength UNPADDED + 6) :
    (Xtea.decrypt key m).1 = false := by
  have hmod := mod_eight_of_eq
  rw [Xtea.decrypt_eq hpos, if_pos (by omega)]

/-! ## The round trip -/

/-- A frame with these fields reaches the connection `c` and is read back. -/
structure RoundTrip (c : Connection) (frame : Bytes) (fields : List Field) : Prop where
  /-- `parseHeader` arms a read for the rest of the frame -/
  header : (c.deliverHeader (frame.take 2)).reads =
    c.reads ++ [⟨.body (frame.length - 2), c.socketOpen⟩]
  /-- no step back: the cursor is behind the checksum -/
  checksum : (c.deliver frame).msg.stripChecksum.pos = 6
  decrypted : (Xtea.decrypt c.protocol.key (c.deliver frame).msg.stripChecksum).1 = true
  length : (Xtea.decrypt c.protocol.key (c.deliver frame).msg.stripChecksum).2.len =
    (Field.encodeAll fields).length
  values : ∀ calls values, Field.Reads fields calls values →
    (ReadCall.runAll calls
      (Xtea.decrypt c.protocol.key (c.deliver frame).msg.stripChecksum).2).1 = values
  overrun : ∀ calls values, Field.Reads fields calls values →
    (ReadCall.runAll calls
      (Xtea.decrypt c.protocol.key (c.deliver frame).msg.stripChecksum).2).2.overrun =
        c.msg.overrun

/-- What a frame around a ciphertext leaves in the connection. -/
theorem deliver_frame (c : Connection) {cipher : Bytes}
    (h0 : 2 ≤ cipher.length) (h1 : cipher.length ≤ 24569) :
    (c.deliverHeader ((OutputMessage.frameBytes cipher).take 2)).reads =
        c.reads ++ [⟨.body ((OutputMessage.frameBytes cipher).length - 2), c.socketOpen⟩] ∧
      (c.deliver (OutputMessage.frameBytes cipher)).msg.stripChecksum.pos = 6 ∧
      (c.deliver (OutputMessage.frameBytes cipher)).msg.stripChecksum.len =
        cipher.length + 6 ∧
      read (c.deliver (OutputMessage.frameBytes cipher)).msg.stripChecksum.buffer 6
        cipher.length = cipher ∧
      (c.deliver (OutputMessage.frameBytes cipher)).msg.stripChecksum.overrun =
        c.msg.overrun := by
  let body : Bytes := Width.encode .u32 (adlerChecksum cipher) ++ cipher
  have hsum : (Width.encode .u32 (adlerChecksum cipher)).length = 4 :=
    Width.length_encode _ _
  have hbody : body.length = cipher.length + 4 := by
    rw [List.length_append, hsum]
    omega
  have hframe : OutputMessage.frameBytes cipher =
      OutputMessage.lengthBytes body.length ++ body := by
    rw [OutputMessage.frameBytes, hbody, List.append_assoc]
  have haccepted : AcceptedSize body.length := by
    constructor
    · omega
    · simp only [NETWORKMESSAGE_MAXSIZE]
      omega
  have hdelivered := Connection.delivered_deliver c haccepted
  have hheadLen := OutputMessage.length_lengthBytes body.length
  have hannounced : (OutputMessage.lengthBytes body.length ++ body).length - 2 =
      body.length := by
    rw [← hframe, OutputMessage.frameBytes, hbody]
    simp [Width.bytes]
    omega
  have hmatch :
      (c.deliver (OutputMessage.lengthBytes body.length ++ body)).msg.ChecksumMatches := by
    rw [checksumMatches_iff hdelivered (by omega)]
    show Width.decode .u32 (body.take 4) = adlerChecksum (body.drop 4)
    rw [List.take_left' hsum, List.drop_left' hsum, Width.decode_encode]
  rw [hframe]
  refine ⟨?_, ?_, ?_, ?_, ?_⟩
  · rw [List.take_left' hheadLen, Connection.deliverHeader_of_accepted c haccepted,
      hannounced]
  · rw [NetworkMessage.stripChecksum_pos hdelivered.pos, if_pos hmatch]
  · rw [NetworkMessage.stripChecksum_len hdelivered.pos, hdelivered.len]
    omega
  · rw [NetworkMessage.stripChecksum_buffer hdelivered.pos]
    have hsub := read_sub
      (c.deliver (OutputMessage.lengthBytes body.length ++ body)).msg.buffer 2
      (show 4 + cipher.length ≤ body.length by omega)
    rw [hdelivered.bytes, List.drop_left' hsum, List.take_of_length_le (Nat.le_refl _)] at hsub
    exact hsub
  · rw [NetworkMessage.stripChecksum_overrun hdelivered.pos, hdelivered.overrun]

/-- The ciphertext of a message that holds a body is short enough for the
size test. -/
theorem length_cipher_le {body cipher : Bytes}
    (hroom : 8 + body.length < MAX_BODY_LENGTH)
    (hlength : cipher.length = (OutputMessage.innerBytes body).length) :
    cipher.length ≤ 24569 := by
  have htotal := OutputMessage.length_innerBytes body
  by_cases hn : body.length = UNPADDED
  · rw [hlength, htotal, hn]
    decide
  · have hmod := mod_eight_of_ne hroom hn
    have hpad := paddingLength_le body.length
    rw [MAX_BODY_LENGTH_eq] at hroom
    unfold UNPADDED at hn
    omega

/-- The longest body does not come through. -/
theorem not_roundTrip_of_unpadded {m : OutputMessage} {fields : List Field}
    (c : Connection) (hholds : m.Holds (Field.encodeAll fields))
    (hn : (Field.encodeAll fields).length = UNPADDED) :
    ¬ RoundTrip c (encryptMessage c.protocol.key m).outputBytes fields := by
  obtain ⟨cipher, hframe, -, hlength, -⟩ :=
    OutputMessage.encryptMessage_wire c.protocol.key hholds
  have htotal := OutputMessage.length_innerBytes (Field.encodeAll fields)
  obtain ⟨-, hpos, hlen, -, -⟩ :=
    deliver_frame c (by omega) (length_cipher_le hholds.room hlength)
  rw [hframe]
  intro htrip
  have hrejected := decrypt_unpadded c.protocol.key (Nat.le_of_eq hpos)
    (by rw [hlen, hlength, htotal, hn])
  have := htrip.decrypted
  rw [hrejected] at this
  cases this

/-- Every other body does. -/
theorem roundTrip_of_padded {m : OutputMessage} {fields : List Field}
    (c : Connection) (hholds : m.Holds (Field.encodeAll fields))
    (hfits : ∀ value, Field.string value ∈ fields → value.length < 65536)
    (hn : (Field.encodeAll fields).length ≠ UNPADDED) :
    RoundTrip c (encryptMessage c.protocol.key m).outputBytes fields := by
  obtain ⟨cipher, hframe, -, hlength, hblocks⟩ :=
    OutputMessage.encryptMessage_wire c.protocol.key hholds
  have htotal := OutputMessage.length_innerBytes (Field.encodeAll fields)
  have hmod := mod_eight_of_ne hholds.room hn
  obtain ⟨hheader, hpos, hlen, hread, hoverrun⟩ :=
    deliver_frame c (by omega) (length_cipher_le hholds.room hlength)
  have hcipher := hblocks (by omega)
  rw [hlength] at hcipher hread
  obtain ⟨htrue, hbody, hviews⟩ := decrypt_frame c.protocol.key hholds.room hn hpos
    (by rw [hlen, hlength]) (by rw [hread, ← hcipher])
  rw [hoverrun] at hviews
  have hreads : ∀ calls values, Field.Reads fields calls values →
      (ReadCall.runAll calls (Xtea.decrypt c.protocol.key
        (c.deliver (OutputMessage.frameBytes cipher)).msg.stripChecksum).2).1 = values ∧
      (ReadCall.runAll calls (Xtea.decrypt c.protocol.key
        (c.deliver (OutputMessage.frameBytes cipher)).msg.stripChecksum).2).2.overrun =
          c.msg.overrun := by
    intro calls values hcalls
    obtain ⟨hvalues, hfinal⟩ := hviews.runAll calls
    obtain ⟨hspec, hflag⟩ := Field.specAll_fields hcalls hfits []
      { data := Field.encodeAll fields, overrun := c.msg.overrun }
      (by rw [List.append_nil]; rfl) (Nat.zero_le _)
    exact ⟨hvalues.trans hspec, hfinal.overrun.trans hflag⟩
  rw [hframe]
  constructor
  · exact hheader
  · exact hpos
  · exact htrue
  · exact hbody
  · intro calls values hcalls
    exact (hreads calls values hcalls).1
  · intro calls values hcalls
    exact (hreads calls values hcalls).2

/-- A message made of accepted fields survives encryption, delivery and
decryption exactly when its body is not the longest one. -/
theorem wire_round_trip_iff (memory : Memory) (fields : List Field) (c : Connection)
    (haccepted : Field.AllAccepted fields (OutputMessage.create memory)) :
    RoundTrip c
        (encryptMessage c.protocol.key
          (Field.addAll fields (OutputMessage.create memory))).outputBytes fields ↔
      (Field.encodeAll fields).length ≠ UNPADDED := by
  have hholds := Field.addAll_holds fields (OutputMessage.holds_create memory) haccepted
  rw [List.nil_append] at hholds
  constructor
  · intro htrip hn
    exact not_roundTrip_of_unpadded c hholds hn htrip
  · intro hn
    exact roundTrip_of_padded c hholds (Field.length_lt_of_accepted fields haccepted) hn

/-- A receiver with a packet behind it: the counters and the flag are not
those of a fresh message. -/
def sampleReceiver : Connection :=
  { msg := { length := 17, position := 12, overrun := true, buffer := fun _ => 0 }
    receivedFirst := true }

/-- A byte and a string come through. -/
theorem wire_round_trip_sample :
    Field.AllAccepted [.byte 7, .string [104, 105]] (OutputMessage.create fun _ => 0) ∧
      RoundTrip sampleReceiver
        (encryptMessage sampleReceiver.protocol.key
          (Field.addAll [.byte 7, .string [104, 105]]
            (OutputMessage.create fun _ => 0))).outputBytes
        [.byte 7, .string [104, 105]] := by
  have haccepted :
      Field.AllAccepted [.byte 7, .string [104, 105]] (OutputMessage.create fun _ => 0) :=
    ⟨rfl, ⟨rfl, by decide⟩, trivial⟩
  exact ⟨haccepted, (wire_round_trip_iff _ _ sampleReceiver haccepted).mpr (by decide)⟩

/-- A third of the longest body. -/
def chunk : Bytes := List.replicate 8189 0

theorem length_chunk : chunk.length = 8189 := List.length_replicate

/-- Three strings of raw bytes that fill the message. -/
def longestBody : List Field := [.bytes chunk, .bytes chunk, .bytes chunk]

theorem longestBody_accepted :
    Field.AllAccepted longestBody (OutputMessage.create fun _ => 0) := by
  have hfield : ∀ {m : OutputMessage} {body : Bytes}, m.Holds body →
      body.length ≤ 16378 → Field.Accepted m (.bytes chunk) := by
    intro m body h hbody
    have hpos := h.pos
    constructor
    · rw [NetworkMessage.canAdd_iff, MAX_BODY_LENGTH_eq, length_chunk]
      omega
    · rw [length_chunk]
      decide
  have h0 := OutputMessage.holds_create fun _ => 0
  have ha := hfield h0 (Nat.zero_le _)
  have h1 := Field.addTo_holds h0 _ ha
  have hlen1 : ([] ++ Field.encode (.bytes chunk)).length = 8189 := length_chunk
  have hb := hfield h1 (by omega)
  have h2 := Field.addTo_holds h1 _ hb
  have hc := hfield h2 (by rw [List.length_append, hlen1, Field.encode, length_chunk])
  exact ⟨ha, hb, hc, trivial⟩

/-- They are accepted, and do not come through. -/
theorem longest_body_lost :
    Field.AllAccepted longestBody (OutputMessage.create fun _ => 0) ∧
      ¬ RoundTrip sampleReceiver
        (encryptMessage sampleReceiver.protocol.key
          (Field.addAll longestBody (OutputMessage.create fun _ => 0))).outputBytes
        longestBody := by
  refine ⟨longestBody_accepted, ?_⟩
  have hholds := Field.addAll_holds longestBody
    (OutputMessage.holds_create fun _ => 0) longestBody_accepted
  rw [List.nil_append] at hholds
  apply not_roundTrip_of_unpadded sampleReceiver hholds
  show (chunk ++ (chunk ++ (chunk ++ []))).length = UNPADDED
  rw [List.append_nil, List.length_append, List.length_append, length_chunk]
  rfl

end LoginServer.Network
