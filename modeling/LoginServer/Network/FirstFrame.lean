import LoginServer.Network.FrameDelivery

/-!
# The first frame

What `Connection::parsePacket` does with the first frame of a connection:
`stripChecksum`, one byte skipped, then `authenticate`.  The skips are not
guarded, so the place of the RSA block depends on the checksum test alone,
and `blockStart` is that place counted in the body.

## Main results

* `readLogin_eq` — `authenticate` up to the RSA block, on any stripped frame.
* `rsaDecrypt_of_fits`, `rsaDecrypt_of_short` — the guard in front of it.
* `run_first_frame` — the two inputs of a first frame as one handler chain.
-/

namespace LoginServer.Network

open LoginServer.Verified
open LoginServer.Verified.ByteMemory
open LoginServer.Utils
open OutputMessage (lengthBytes length_lengthBytes)

/-- A frame: its size header counts its body in 16 bits. -/
structure Frame where
  body : Bytes
  fits : body.length < 65536

def Frame.header (frame : Frame) : Bytes := lengthBytes frame.body.length

/-- Where the fields start: behind the checksum, if there is one. -/
def fieldStart (body : Bytes) : Nat := if BodyChecksum body then 4 else 0

/-- Where the RSA block starts: behind the protocol id, the operating system,
the version and seventeen skipped bytes. -/
def blockStart (body : Bytes) : Nat := fieldStart body + 22

theorem fieldStart_le (body : Bytes) : fieldStart body ≤ 4 := by
  unfold fieldStart
  split <;> decide

/-! ## `authenticate` up to the RSA block -/

/-- The message `RSA::decrypt` is called on. -/
def beforeRsa (m : NetworkMessage) : NetworkMessage :=
  (((m.skipBytes 1).skipBytes 2).advance 2).skipBytes 17

theorem beforeRsa_len (m : NetworkMessage) : (beforeRsa m).len = m.len := by
  rfl

theorem beforeRsa_buffer (m : NetworkMessage) :
    (beforeRsa m).buffer = m.buffer := by
  rfl

theorem beforeRsa_overrun (m : NetworkMessage) :
    (beforeRsa m).overrun = m.overrun := by
  rfl

/-- What `authenticate` makes of the answer of `RSA::decrypt`. -/
def afterRsa (env : Env) (version : BitVec 16) :
    Option Bool × NetworkMessage → Login × NetworkMessage
  | (none, msg) => ({ version, branch := .threw }, msg)
  | (some false, msg) => ({ version, branch := .rsaRejected }, msg)
  | (some true, msg) => readCredentials env version (readKey msg).1 (readKey msg).2

section
variable {m : NetworkMessage} (hpos : m.pos ≤ 6)
include hpos

theorem beforeRsa_pos : (beforeRsa m).pos = m.pos + 22 := by
  have h1 : (m.skipBytes 1).pos = m.pos + 1 := NetworkMessage.skipBytes_pos 1 (by omega)
  have h2 : ((m.skipBytes 1).skipBytes 2).pos = (m.skipBytes 1).pos + 2 :=
    NetworkMessage.skipBytes_pos 2 (by omega)
  have h3 : (((m.skipBytes 1).skipBytes 2).advance 2).pos =
      ((m.skipBytes 1).skipBytes 2).pos + 2 := NetworkMessage.advance_pos (by omega)
  have h4 : (beforeRsa m).pos = (((m.skipBytes 1).skipBytes 2).advance 2).pos + 17 :=
    NetworkMessage.skipBytes_pos 17 (by omega)
  omega

/-- The version is read however short the frame is, and the skips that follow
are not guarded. -/
theorem readLogin_eq (env : Env) (hlen : 2 < m.len) :
    readLogin env (m.skipBytes 1) =
      afterRsa env (Width.decode .u16 (read m.buffer (m.pos + 3) 2))
        (Rsa.decrypt env.rsaBlock (beforeRsa m)) := by
  have h1 : (m.skipBytes 1).pos = m.pos + 1 := NetworkMessage.skipBytes_pos 1 (by omega)
  have h2 : ((m.skipBytes 1).skipBytes 2).pos = (m.skipBytes 1).pos + 2 :=
    NetworkMessage.skipBytes_pos 2 (by omega)
  have hread : ((m.skipBytes 1).skipBytes 2).Readable (Width.bytes .u16) := by
    constructor
    · show ((m.skipBytes 1).skipBytes 2).pos + 2 ≤ m.len + 8
      omega
    · show ((m.skipBytes 1).skipBytes 2).pos + 2 < NETWORKMESSAGE_MAXSIZE
      simp only [NETWORKMESSAGE_MAXSIZE]
      omega
  have hversion : read ((m.skipBytes 1).skipBytes 2).buffer
      ((m.skipBytes 1).skipBytes 2).pos 2 = read m.buffer (m.pos + 3) 2 := by
    rw [h2, h1]
    rfl
  unfold readLogin
  dsimp only
  rw [NetworkMessage.get_of_readable hread]
  dsimp only
  rw [hversion]
  show _ = afterRsa env _ (Rsa.decrypt env.rsaBlock
    ((((m.skipBytes 1).skipBytes 2).advance 2).skipBytes 17))
  generalize Rsa.decrypt env.rsaBlock
    ((((m.skipBytes 1).skipBytes 2).advance 2).skipBytes 17) = result
  obtain ⟨answer, msg⟩ := result
  cases answer with
  | none => rfl
  | some accepted => cases accepted <;> rfl

end

/-- A message with less than a block in front of the cursor. -/
theorem rsaDecrypt_of_short (rsaBlock : Rsa.Block → Option Rsa.Block) {m : NetworkMessage}
    (h : m.len < m.pos + 128) : Rsa.decrypt rsaBlock m = (some false, m) := by
  rw [Rsa.decrypt, if_pos (by omega)]

theorem length_rsaInput (m : NetworkMessage) : (read m.buffer m.pos 128).length = 128 :=
  length_read m.buffer m.pos 128

/-- The block in front of the cursor. -/
def rsaInput (m : NetworkMessage) : Rsa.Block :=
  ⟨read m.buffer m.pos 128, length_rsaInput m⟩

/-- The message with its block decrypted. -/
def decrypted (m : NetworkMessage) (c : Rsa.Block) : NetworkMessage :=
  (m.log (.read m.pos 128)).put m.pos c.1

theorem rsaDecrypt_of_fits (rsaBlock : Rsa.Block → Option Rsa.Block) {m : NetworkMessage}
    (h : m.pos + 128 ≤ m.len) :
    Rsa.decrypt rsaBlock m =
      match rsaBlock (rsaInput m) with
      | none => (none, m.log (.read m.pos 128))
      | some c => (some ((decrypted m c).getByte.1 = 0), (decrypted m c).getByte.2) := by
  rw [Rsa.decrypt, if_neg (by omega)]
  rfl

/-! ## The block in the frame -/

/-- The RSA block of a body that is long enough. -/
def rsaBlockOf (body : Bytes) : Bytes := (body.drop (blockStart body)).take 128

/-- Where the fields start in the buffer. -/
theorem stripChecksum_pos_of_long {old m : NetworkMessage} {body : Bytes}
    (h : Connection.Delivered old m body) (hlong : 4 < body.length) :
    m.stripChecksum.pos = fieldStart body + 2 := by
  rw [NetworkMessage.stripChecksum_pos h.pos, fieldStart]
  by_cases hmatch : BodyChecksum body
  · rw [if_pos ((checksumMatches_iff h hlong).mpr hmatch), if_pos hmatch]
  · rw [if_neg (fun hm => hmatch ((checksumMatches_iff h hlong).mp hm)), if_neg hmatch]

/-- The message `RSA::decrypt` is called on, for a body that has a block. -/
structure AtBlock (m : NetworkMessage) (body : Bytes) : Prop where
  pos : m.pos = blockStart body + 2
  len : m.len = body.length + 2
  block : read m.buffer m.pos 128 = rsaBlockOf body

theorem atBlock_beforeRsa {old m : NetworkMessage} {body : Bytes}
    (h : Connection.Delivered old m body) (hfits : blockStart body + 128 ≤ body.length) :
    AtBlock (beforeRsa m.stripChecksum) body := by
  have hlong : 4 < body.length := by
    unfold blockStart at hfits
    omega
  have hstart := stripChecksum_pos_of_long h hlong
  have hfield := fieldStart_le body
  have hle : m.stripChecksum.pos ≤ 6 := by omega
  have hpos : (beforeRsa m.stripChecksum).pos = blockStart body + 2 := by
    have hrsa := beforeRsa_pos hle
    unfold blockStart
    omega
  constructor
  · exact hpos
  · rw [beforeRsa_len, NetworkMessage.stripChecksum_len h.pos, h.len]
  · have hbuffer : (beforeRsa m.stripChecksum).buffer = m.buffer := by
      rw [beforeRsa_buffer, NetworkMessage.stripChecksum_buffer h.pos]
    have hsub := read_sub m.buffer 2 hfits
    rw [h.bytes, Nat.add_comm 2 (blockStart body)] at hsub
    rw [hbuffer, hpos, hsub]
    rfl

/-- A body without a block is rejected by the length test. -/
theorem short_beforeRsa {old m : NetworkMessage} {body : Bytes}
    (h : Connection.Delivered old m body) (hshort : ¬ blockStart body + 128 ≤ body.length) :
    (beforeRsa m.stripChecksum).len < (beforeRsa m.stripChecksum).pos + 128 := by
  have hlen : (beforeRsa m.stripChecksum).len = body.length + 2 := by
    rw [beforeRsa_len, NetworkMessage.stripChecksum_len h.pos, h.len]
  have hle : m.stripChecksum.pos ≤ 6 := by
    rw [NetworkMessage.stripChecksum_pos h.pos]
    split <;> decide
  have hrsa := beforeRsa_pos hle
  by_cases hlong : 4 < body.length
  · have hstart := stripChecksum_pos_of_long h hlong
    unfold blockStart at hshort
    omega
  · omega

/-! ## What a client sends -/

/-- The size a byte stream announces. -/
def announced (bytes : Bytes) : Nat := LittleEndian.decode (bytes.take 2)

/-- The body of the first frame, as far as it was sent. -/
def sentBody (bytes : Bytes) : Bytes := (bytes.drop 2).take (announced bytes)

/-- The inputs a client causes that sends `bytes` and then closes: a read
fails when the bytes run out before it is complete, and after a refused
header there is no second read. -/
def clientInputs (bytes : Bytes) (t1 t2 : Turn) : List Connection.Input :=
  if bytes.length < 2 then [.readFailed 0 bytes t1]
  else if ¬ AcceptedSize (announced bytes) ∨ t1.readArmThrows = true then
    [.readDone 0 (bytes.take 2) t1]
  else if (bytes.drop 2).length < announced bytes then
    [.readDone 0 (bytes.take 2) t1, .readFailed 0 (bytes.drop 2) t2]
  else [.readDone 0 (bytes.take 2) t1, .readDone 0 (sentBody bytes) t2]

theorem announced_lt {bytes : Bytes} (h : 2 ≤ bytes.length) : announced bytes < 65536 := by
  have hlt := LittleEndian.decode_lt (bytes.take 2)
  rw [List.length_take, Nat.min_eq_left h] at hlt
  exact hlt

/-- Two bytes are the header of the size they announce. -/
theorem lengthBytes_announced {bytes : Bytes} (h : 2 ≤ bytes.length) :
    lengthBytes (announced bytes) = bytes.take 2 := by
  have hlen : (bytes.take 2).length = Width.bytes .u16 := by
    rw [List.length_take, Nat.min_eq_left h]
  exact Width.encode_decode .u16 hlen

/-! ## The handler chain -/

namespace Connection

/-- A fresh connection whose first header read has completed. -/
def fresh (memory : Memory) : Connection :=
  { accept memory with reads := [] }

/-- The state in which the first packet is authenticated. -/
def authenticating (c : Connection) : Connection :=
  { c with
    readTimer := c.readTimer.cancel
    receivedFirst := true
    msg := c.msg.stripChecksum.skipBytes 1 }

theorem parsePacket_first (env : Env) {c : Connection} (turn : Turn)
    (hclosed : c.closed = false) (hfirst : c.receivedFirst = false) :
    c.parsePacket env false turn =
      if ((authenticating c).authenticate env turn).escaped.isSome then
        (authenticating c).authenticate env turn
      else ((authenticating c).authenticate env turn).armHeaderRead turn.readArmThrows := by
  have hhandle : handlePacket env
      { c with readTimer := c.readTimer.cancel, msg := c.msg.stripChecksum } turn =
        (authenticating c).authenticate env turn := by
    rw [handlePacket, if_neg (by rw [hfirst]; decide)]
    rfl
  rw [← hhandle, parsePacket, if_neg (by decide), if_neg (by rw [hclosed]; decide)]

/-- The turn of `parseHeader` matters only through the timer. -/
theorem parseHeader_turn (c : Connection) (error : Bool) {turn : Turn}
    (h : turn.readArmThrows = false) : c.parseHeader error turn = c.parseHeader error {} := by
  unfold parseHeader
  simp only [h]

/-- The first body, with its read no longer outstanding. -/
def firstBody (memory : Memory) (frame : Frame) : Connection :=
  { (fresh memory).deliver (frame.header ++ frame.body) with reads := [] }

/-- The message of the first body. -/
theorem delivered_firstBody (memory : Memory) (frame : Frame)
    (hsize : AcceptedSize frame.body.length) :
    Delivered (fresh memory).msg (firstBody memory frame).msg frame.body :=
  delivered_deliver (fresh memory) hsize

theorem firstBody_state (memory : Memory) (frame : Frame)
    (hsize : AcceptedSize frame.body.length) :
    (firstBody memory frame).closed = false ∧
      (firstBody memory frame).receivedFirst = false ∧
      (firstBody memory frame).escaped = none ∧ (firstBody memory frame).history = [] := by
  have hlength : frame.header.length = 2 := length_lengthBytes _
  unfold firstBody deliver
  rw [List.take_left' hlength, Frame.header, deliverHeader_of_accepted _ hsize]
  exact ⟨rfl, rfl, rfl, rfl⟩

/-- The first header, and the read it arms. -/
theorem step_first_header (env : Env) (memory : Memory) (frame : Frame) {turn : Turn}
    (hturn : turn.readArmThrows = false) (hsize : AcceptedSize frame.body.length) :
    (accept memory).step env (.readDone 0 frame.header turn) =
        some ((fresh memory).deliverHeader frame.header) ∧
      ((fresh memory).deliverHeader frame.header).reads =
        [⟨.body frame.body.length, true⟩] ∧
      ((fresh memory).deliverHeader frame.header).escaped = none := by
  refine ⟨?_, ?_, ?_⟩
  · rw [step_readDone env turn rfl rfl (length_lengthBytes _)]
    exact congrArg some (parseHeader_turn _ false hturn)
  · rw [Frame.header, deliverHeader_of_accepted (fresh memory) hsize]
    rfl
  · rw [Frame.header, deliverHeader_of_accepted (fresh memory) hsize]
    rfl

/-- A frame of an accepted size reaches `parsePacket`. -/
theorem run_first_frame (env : Env) (memory : Memory) (frame : Frame) {t1 : Turn}
    (t2 : Turn) (hturn : t1.readArmThrows = false) (hsize : AcceptedSize frame.body.length) :
    run env [.readDone 0 frame.header t1, .readDone 0 frame.body t2] (accept memory) =
      some ((firstBody memory frame).parsePacket env false t2) := by
  obtain ⟨hheader, hreads, hescaped⟩ := step_first_header env memory frame hturn hsize
  have hlen : frame.header.length = 2 := length_lengthBytes _
  show (step env (.readDone 0 frame.header t1) (accept memory)).bind _ = _
  rw [hheader]
  show (step env (.readDone 0 frame.body t2) _).bind _ = _
  rw [step_readDone env t2 hreads hescaped rfl, firstBody, deliver,
    List.take_left' hlen, List.drop_left' hlen]
  rfl

end Connection

end LoginServer.Network
