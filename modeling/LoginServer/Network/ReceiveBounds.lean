import LoginServer.Network.AuthenticationGate
import LoginServer.Network.BufferBounds

/-!
# Bounds on the receive path

A frame passes through moves that no guard protects before a script sees it:
the size header sets the length, the checksum test steps forward and back,
`authenticate` skips, and both ciphers write in place.  What bounds them is
the one test in `parseHeader`, so the proof follows the frame from there:
`FrameReady` is what that test leaves behind, and from it every later handler
step is `Bounded`.

The counters it sets are those of the message that scripts were given, and
while the body is on its way nothing keeps a script from moving them.  A
script that waits until no body is being read finds the message `Bounded`, and
leaves it so.

## Main results

* `stripped_stripChecksum`, `bounded_decrypt`, `bounded_readLogin` — the
  unguarded part of the path.
* `ReceiveInv.step` — one input of the connection.
* `receive_bounds` — every access in every run in which the message of a
  frame stays as `parseHeader` left it.
* `receive_bounds_kept` — the bytes behind the buffer that are deciphered
  where it does not.
-/

namespace LoginServer.Network

open LoginServer.Verified
open LoginServer.Verified.ByteMemory
open LoginServer.Utils
open LoginServer.Script (MessageCall)

namespace NetworkMessage

/-- The state in which `parsePacket` finds the message: the cursor on the
body, the length that of an accepted frame. -/
structure FrameReady (m : NetworkMessage) : Prop where
  safe : m.Safe
  pos : m.pos = 2
  len_pos : 2 < m.len
  len_lt : m.len < 24576

/-- The state after the checksum test. -/
structure Stripped (m : NetworkMessage) : Prop extends Bounded m where
  pos_le : m.pos ≤ 6
  len_pos : 2 < m.len
  len_lt : m.len < 24576

theorem FrameReady.bounded {m : NetworkMessage} (h : m.FrameReady) : m.Bounded := by
  obtain ⟨hsafe, hpos, -, hlen⟩ := h
  refine ⟨hsafe, ?_, ?_⟩ <;> simp only [NETWORKMESSAGE_MAXSIZE] <;> omega

/-- What the test in `parseHeader` lets through. -/
theorem frameReady_getBodyBuffer {m : NetworkMessage} {size : Nat} (h : m.Safe)
    (h0 : 0 < size) (h1 : size < 24574) :
    (m.setLength (size + HEADER_LENGTH)).getBodyBuffer.FrameReady ∧
      (m.setLength (size + HEADER_LENGTH)).getBodyBuffer.len = size + 2 := by
  have hlen : (m.setLength (size + HEADER_LENGTH)).getBodyBuffer.len = size + 2 := by
    show (msgSize _).toNat = _
    simp only [HEADER_LENGTH]
    rw [msgSize_toNat (by omega) (by omega)]
    omega
  refine ⟨?_, hlen⟩
  refine
    { safe := ?_
      pos := ?_
      len_pos := by omega
      len_lt := by omega }
  · simp only [HEADER_LENGTH]
    exact (h.setLength (by omega) (by omega)).setPosition (by omega) (by omega)
  · show (msgSize _).toNat = 2
    decide

/-- Skipping forward inside the buffer. -/
theorem Bounded.skipBytes {m : NetworkMessage} (h : m.Bounded) (count : Nat)
    (hmax : m.pos + count < NETWORKMESSAGE_MAXSIZE) : (m.skipBytes count).Bounded := by
  have hlen := h.len_le
  simp only [NETWORKMESSAGE_MAXSIZE] at hmax hlen
  have hpos : (m.skipBytes count).pos = m.pos + count := skipBytes_pos count (by omega)
  refine
    { safe := h.safe.setPosition (by omega) (by omega)
      pos_lt := ?_
      len_le := ?_ }
  · simp only [hpos, NETWORKMESSAGE_MAXSIZE]
    omega
  · show m.len ≤ (m.skipBytes count).pos + NETWORKMESSAGE_MAXSIZE
    simp only [hpos, NETWORKMESSAGE_MAXSIZE]
    omega

/-- Stepping back over the four bytes of a checksum just read. -/
theorem Bounded.stepBack {m : NetworkMessage} (h : m.Bounded) (hpos : m.pos = 6)
    (hlen : m.len < 24576) : (m.skipBytes (-CHECKSUM_LENGTH)).Bounded := by
  have hvalue : (m.pos : Int) + -CHECKSUM_LENGTH = 2 := by
    simp only [hpos, CHECKSUM_LENGTH]
    omega
  have hback : (m.skipBytes (-CHECKSUM_LENGTH)).pos = 2 := by
    show (msgSize _).toNat = 2
    rw [hvalue]
    decide
  refine
    { safe := h.safe.setPosition (by omega) (by omega)
      pos_lt := ?_
      len_le := ?_ }
  · rw [hback]
    decide
  · show m.len ≤ _
    simp only [hback, NETWORKMESSAGE_MAXSIZE]
    omega

theorem Bounded.log {m : NetworkMessage} {access : Access} (h : m.Bounded)
    (haccess : access.Safe) : (m.log access).Bounded :=
  ⟨h.safe.log haccess, h.pos_lt, h.len_le⟩

theorem Bounded.put {m : NetworkMessage} {lo : Nat} {bytes : Bytes} (h : m.Bounded)
    (hhi : lo + bytes.length ≤ NETWORKMESSAGE_MAXSIZE) : (m.put lo bytes).Bounded :=
  ⟨h.safe.put hhi, h.pos_lt, h.len_le⟩

theorem get_pos_le {m : NetworkMessage} {w : Width} :
    (m.get w).2.pos ≤ m.pos + w.bytes := by
  by_cases hread : m.Readable w.bytes
  · have hmax := hread.2
    simp only [NETWORKMESSAGE_MAXSIZE] at hmax
    rw [get_of_readable hread]
    exact Nat.le_of_eq (advance_pos (by omega))
  · rw [get_of_not_readable hread]
    exact Nat.le_add_right _ _

theorem get_len {m : NetworkMessage} {w : Width} : (m.get w).2.len = m.len := by
  by_cases hread : m.Readable w.bytes
  · rw [get_of_readable hread]
    rfl
  · rw [get_of_not_readable hread]
    rfl

/-! ## The checksum test -/

theorem stripped_stripChecksum {m : NetworkMessage} (h : m.FrameReady) :
    m.stripChecksum.Stripped := by
  have hpos := h.pos
  have hlo := h.len_pos
  have hhi := h.len_lt
  have hsum : m.summed.Bounded := by
    unfold summed
    split
    · apply h.bounded.log
      simp only [Access.Safe, NETWORKMESSAGE_MAXSIZE]
      omega
    · exact h.bounded
  have hsumPos : m.summed.pos = 2 := by
    unfold summed
    split <;> exact hpos
  have hsumLen : m.summed.len = m.len := by
    unfold summed
    split <;> rfl
  have hread : (m.summed.advance 4).Bounded := by
    apply hsum.advance
    simp only [hsumPos, NETWORKMESSAGE_MAXSIZE]
    omega
  have hreadPos : (m.summed.advance 4).pos = 6 := by
    rw [advance_pos (by omega), hsumPos]
  refine
    { toBounded := ?_
      pos_le := ?_
      len_pos := by rw [stripChecksum_len hpos]; exact hlo
      len_lt := by rw [stripChecksum_len hpos]; exact hhi }
  · rw [stripChecksum_eq hpos]
    split
    · exact hread
    · exact hread.stepBack hreadPos (by rw [advance_len, hsumLen]; exact hhi)
  · rw [stripChecksum_pos hpos]
    split <;> decide

/-! ## The two ciphers -/

theorem bounded_decrypt {k : Xtea.Key} {m : NetworkMessage} (h : m.Stripped) :
    (Xtea.decrypt k m).2.Bounded := by
  have hpos := h.pos_le
  have hhi := h.len_lt
  have hbounded := h.toBounded
  rw [Xtea.decrypt_eq hpos]
  split
  · exact hbounded
  · rename_i hlen
    have hcipher : (Xtea.deciphered k m).Bounded := by
      have hrange : m.pos + (m.len - 6) ≤ NETWORKMESSAGE_MAXSIZE := by
        simp only [NETWORKMESSAGE_MAXSIZE]
        omega
      exact
        { safe := List.forall_mem_cons.mpr ⟨hrange,
            List.forall_mem_cons.mpr ⟨hrange, hbounded.safe⟩⟩
          pos_lt := hbounded.pos_lt
          len_le := hbounded.len_le }
    have hread : ((Xtea.deciphered k m).advance 2).Bounded := by
      apply hcipher.advance
      show m.pos + 2 < NETWORKMESSAGE_MAXSIZE
      simp only [NETWORKMESSAGE_MAXSIZE]
      omega
    split
    · exact hread
    · rename_i hinner
      -- the new length is at most the old one
      refine
        { safe := hread.safe.setLength (by omega) (by omega)
          pos_lt := hread.pos_lt
          len_le := ?_ }
      show (msgSize _).toNat ≤ ((Xtea.deciphered k m).advance 2).pos + _
      rw [msgSize_toNat (by omega) (by omega)]
      simp only [NETWORKMESSAGE_MAXSIZE]
      omega

theorem bounded_rsaDecrypt {rsaBlock : Rsa.Block → Option Rsa.Block}
    {m : NetworkMessage} (h : m.Bounded) (hlen : m.len < 24576) :
    (Rsa.decrypt rsaBlock m).2.Bounded := by
  unfold Rsa.decrypt
  split
  · exact h
  · rename_i hblock
    have hrange : m.pos + 128 ≤ NETWORKMESSAGE_MAXSIZE := by
      simp only [NETWORKMESSAGE_MAXSIZE]
      omega
    dsimp only
    have hread : (m.log (.read m.pos 128)).Bounded := h.log hrange
    split
    · exact hread
    · rename_i c _
      refine (hread.put ?_).getByte
      rw [c.2]
      exact hrange

/-! ## The login request -/

theorem bounded_readKey {m : NetworkMessage} (h : m.Bounded) :
    (readKey m).2.Bounded := by
  unfold readKey
  dsimp only
  exact (((h.get .u32).get .u32).get .u32).get .u32

theorem bounded_readCredentials {env : Env} {version : BitVec 16} {key : Xtea.Key}
    {m : NetworkMessage} (h : m.Bounded) :
    (readCredentials env version key m).2.Bounded := by
  have hemail := h.getString 0
  have hpassword := hemail.getString 0
  unfold readCredentials
  split
  · exact h
  · dsimp only
    generalize m.getString = email at hemail hpassword ⊢
    split
    · exact hemail
    · generalize email.2.getString = password at hpassword ⊢
      split <;> exact hpassword

/-- `authenticate` on a stripped frame; the protocol id is already skipped. -/
theorem bounded_readLogin {env : Env} {m : NetworkMessage} (h : m.Stripped) :
    (readLogin env (m.skipBytes 1)).2.Bounded := by
  have hpos := h.pos_le
  have hhi := h.len_lt
  have hid : (m.skipBytes 1).Bounded := by
    apply h.toBounded.skipBytes 1
    simp only [NETWORKMESSAGE_MAXSIZE]
    omega
  have hidPos : (m.skipBytes 1).pos = m.pos + 1 := skipBytes_pos 1 (by omega)
  have hidLen : (m.skipBytes 1).len = m.len := rfl
  generalize m.skipBytes 1 = m1 at hid hidPos hidLen ⊢
  have hos : (m1.skipBytes 2).Bounded := by
    apply hid.skipBytes 2
    simp only [NETWORKMESSAGE_MAXSIZE]
    omega
  have hosPos : (m1.skipBytes 2).pos = m1.pos + 2 := skipBytes_pos 2 (by omega)
  have hosLen : (m1.skipBytes 2).len = m.len := hidLen
  unfold readLogin
  dsimp only
  generalize m1.skipBytes 2 = m2 at hos hosPos hosLen ⊢
  have hversion := hos.get .u16
  have hversionPos : (m2.get .u16).2.pos ≤ m2.pos + 2 := get_pos_le
  have hversionLen : (m2.get .u16).2.len = m.len := get_len.trans hosLen
  generalize (m2.get .u16).2 = m3 at hversion hversionPos hversionLen ⊢
  have hskip : (m3.skipBytes 17).Bounded := by
    apply hversion.skipBytes 17
    simp only [NETWORKMESSAGE_MAXSIZE]
    omega
  have hskipLen : (m3.skipBytes 17).len = m.len := hversionLen
  have hrsa : (Rsa.decrypt env.rsaBlock (m3.skipBytes 17)).2.Bounded :=
    bounded_rsaDecrypt hskip (by omega)
  generalize Rsa.decrypt env.rsaBlock (m3.skipBytes 17) = result at hrsa ⊢
  obtain ⟨answer, m4⟩ := result
  cases answer with
  | none => exact hrsa
  | some accepted =>
      cases accepted with
      | false => exact hrsa
      | true => exact bounded_readCredentials (bounded_readKey hrsa)

end NetworkMessage

namespace Connection

/-- Sends, closes and timers touch neither the incoming message nor the
outstanding reads. -/
structure SameInput (c c' : Connection) : Prop where
  msg : c'.msg = c.msg
  reads : c'.reads = c.reads
  handedOver : c'.handedOver = c.handedOver

theorem SameInput.trans {c c' c'' : Connection} (h : SameInput c c')
    (h' : SameInput c' c'') : SameInput c c'' :=
  ⟨h'.msg.trans h.msg, h'.reads.trans h.reads, h'.handedOver.trans h.handedOver⟩

theorem close_sameInput (c : Connection) : SameInput c c.close := by
  unfold close closeSocket
  dsimp only
  split
  · exact ⟨rfl, rfl, rfl⟩
  · split <;> exact ⟨rfl, rfl, rfl⟩

theorem SameInput.close {c d : Connection} (h : SameInput c d) : SameInput c d.close :=
  h.trans (close_sameInput d)

theorem send_sameInput (c : Connection) (msg : OutputMessage) (throws : Bool) :
    SameInput c (c.send msg throws) := by
  unfold send
  split
  · exact close_sameInput c
  · exact ⟨rfl, rfl, rfl⟩

theorem disconnectClient_sameInput (c : Connection) (turn : Turn) (message : Bytes) :
    SameInput c (c.disconnectClient turn message) :=
  (send_sameInput c _ _).trans (close_sameInput _)

/-- `authenticate` leaves the message as its reads leave it. -/
theorem authenticate_input (env : Env) (c : Connection) (turn : Turn) :
    (c.authenticate env turn).msg = (readLogin env c.msg).2 ∧
      (c.authenticate env turn).reads = c.reads := by
  unfold authenticate
  dsimp only
  have hstore : (c.storeLogin (readLogin env c.msg).1 (readLogin env c.msg).2).msg =
      (readLogin env c.msg).2 ∧
      (c.storeLogin (readLogin env c.msg).1 (readLogin env c.msg).2).reads =
        c.reads := ⟨rfl, rfl⟩
  generalize c.storeLogin (readLogin env c.msg).1 (readLogin env c.msg).2 = d at hstore ⊢
  have hsame : ∀ {d'}, SameInput d d' →
      d'.msg = (readLogin env c.msg).2 ∧ d'.reads = c.reads := fun h =>
    ⟨h.msg.trans hstore.1, h.reads.trans hstore.2⟩
  cases (readLogin env c.msg).1.branch with
  | threw => exact hstore
  | rsaRejected => exact hsame (close_sameInput d)
  | versionRejected => exact hsame (disconnectClient_sameInput d turn _)
  | emptyEmail => exact hsame (disconnectClient_sameInput d turn _)
  | emptyPassword => exact hsame (disconnectClient_sameInput d turn _)
  | badAccount => exact hsame (disconnectClient_sameInput d turn _)
  | accepted => exact hsame (send_sameInput d _ _)

/-- Scripts keep the message bounded, and start no read. -/
theorem runActions_bounded (actions : List ScriptAction) (c : Connection)
    (h : c.msg.Bounded) :
    (actions.foldl runAction c).msg.Bounded ∧
      (actions.foldl runAction c).reads = c.reads := by
  induction actions generalizing c with
  | nil => exact ⟨h, rfl⟩
  | cons action actions ih =>
      cases action with
      | message call => exact ih { c with msg := call.on c.msg } (h.on call)
      | send msg throws =>
          have hsame := send_sameInput c msg throws
          obtain ⟨hmsg, hreads⟩ := ih (c.send msg throws) (hsame.msg ▸ h)
          exact ⟨hmsg, hreads.trans hsame.reads⟩

theorem dispatch_bounded {c : Connection} (turn : Turn) (h : c.msg.Stripped) :
    (c.dispatch turn).msg.Bounded ∧ (c.dispatch turn).reads = c.reads := by
  have hdecrypt := NetworkMessage.bounded_decrypt (k := c.protocol.key) h
  unfold dispatch
  dsimp only
  generalize Xtea.decrypt c.protocol.key c.msg = result at hdecrypt ⊢
  obtain ⟨accepted, msg⟩ := result
  cases accepted with
  | false => exact ⟨hdecrypt, rfl⟩
  | true =>
      dsimp only
      split
      · exact ⟨hdecrypt.getByte, rfl⟩
      · exact runActions_bounded turn.script _ hdecrypt.getByte

theorem handlePacket_bounded (env : Env) {c : Connection} (turn : Turn)
    (h : c.msg.Stripped) :
    (c.handlePacket env turn).msg.Bounded ∧
      (c.handlePacket env turn).reads = c.reads := by
  unfold handlePacket
  split
  · exact dispatch_bounded turn h
  · obtain ⟨hmsg, hreads⟩ := authenticate_input env
      { c with receivedFirst := true, msg := c.msg.skipBytes 1 } turn
    refine ⟨?_, hreads⟩
    rw [hmsg]
    exact NetworkMessage.bounded_readLogin h

/-! ## The invariant -/

/-- At most one read is outstanding, and a body read belongs to an accepted
header; a message that a script may have kept is one it can call. -/
structure ReceiveInv (c : Connection) : Prop where
  safe : c.msg.Safe
  kept : c.handedOver = true → c.msg.Bounded
  reads : c.reads = [] ∨ (∃ isOpen, c.reads = [⟨.header, isOpen⟩]) ∨
    (∃ size isOpen, c.reads = [⟨.body size, isOpen⟩] ∧ c.msg.pos = 2 ∧
      c.msg.len = size + 2 ∧ 0 < size ∧ size < 24574)

theorem ReceiveInv.of_sameInput {c c' : Connection} (h : ReceiveInv c)
    (hs : SameInput c c') : ReceiveInv c' := by
  refine
    { safe := hs.msg ▸ h.safe
      kept := fun hkept => hs.msg ▸ h.kept (hs.handedOver ▸ hkept)
      reads := ?_ }
  rw [hs.reads, hs.msg]
  exact h.reads

/-- Between two reads. -/
theorem receiveInv_of_bounded {c : Connection} (h : c.msg.Bounded) (hreads : c.reads = []) :
    ReceiveInv c :=
  ⟨h.safe, fun _ => h, Or.inl hreads⟩

theorem ReceiveInv.close {c : Connection} (h : ReceiveInv c) : ReceiveInv c.close :=
  h.of_sameInput (close_sameInput c)

/-- A header read starts whatever the counters hold. -/
theorem receiveInv_armHeaderRead {c : Connection} (throws : Bool)
    (hbounded : c.msg.Bounded) (hreads : c.reads = []) :
    ReceiveInv (c.armHeaderRead throws) := by
  unfold armHeaderRead
  split
  · exact (receiveInv_of_bounded hbounded hreads).close
  · refine ⟨hbounded.safe, fun _ => hbounded, Or.inr (Or.inl ⟨c.socketOpen, ?_⟩)⟩
    show c.reads ++ _ = _
    rw [hreads, List.nil_append]

/-- A body read starts at the cursor and with the length that the header gives. -/
theorem receiveInv_parseHeader {c : Connection} (error : Bool) (turn : Turn)
    (hsafe : c.msg.Safe) (hkept : c.handedOver = true → c.msg.Bounded)
    (hreads : c.reads = []) : ReceiveInv (c.parseHeader error turn) := by
  have hheader : Access.Safe (.read 0 HEADER_LENGTH) := by decide
  have hlog : (c.msg.log (.read 0 HEADER_LENGTH)).Safe := hsafe.log hheader
  have hread : ReceiveInv { c with
      readTimer := c.readTimer.cancel, msg := c.msg.log (.read 0 HEADER_LENGTH) } :=
    ⟨hlog, fun hhanded => (hkept hhanded).log hheader, Or.inl hreads⟩
  unfold parseHeader
  dsimp only
  split
  · exact ReceiveInv.close ⟨hsafe, hkept, Or.inl hreads⟩
  · split
    · exact hread.close
    · rename_i hsize
      split
      · exact hread.close
      · -- the only way on: the size is what the test let through
        have hsize' : 0 < c.msg.getLengthHeader ∧ c.msg.getLengthHeader < 24574 := by
          simp only [NETWORKMESSAGE_MAXSIZE] at hsize
          omega
        generalize c.msg.getLengthHeader = size at hsize' ⊢
        obtain ⟨hready, hlen⟩ := NetworkMessage.frameReady_getBodyBuffer hlog hsize'.1 hsize'.2
        refine
          { safe := hready.safe
            kept := fun _ => hready.bounded
            reads := Or.inr (Or.inr ⟨size, c.socketOpen, ?_, hready.pos, hlen, hsize'⟩) }
        show c.reads ++ _ = _
        rw [hreads, List.nil_append]

theorem receiveInv_parsePacket {env : Env} {c : Connection} (error : Bool)
    (turn : Turn) (h : c.msg.FrameReady) (hreads : c.reads = []) :
    ReceiveInv (c.parsePacket env error turn) := by
  unfold parsePacket
  dsimp only
  split
  · exact ReceiveInv.close (receiveInv_of_bounded h.bounded hreads)
  · split
    · exact receiveInv_of_bounded h.bounded hreads
    · obtain ⟨hbounded, hsame⟩ := handlePacket_bounded env
        (c := { c with readTimer := c.readTimer.cancel, msg := c.msg.stripChecksum })
        turn (NetworkMessage.stripped_stripChecksum h)
      generalize handlePacket env _ turn = d at hbounded hsame ⊢
      have hnone : d.reads = [] := hsame.trans hreads
      split
      · exact receiveInv_of_bounded hbounded hnone
      · exact receiveInv_armHeaderRead _ hbounded hnone

private theorem of_getElem?_singleton {α : Type} {x y : α} {i : Nat}
    (h : [x][i]? = some y) : i = 0 ∧ x = y := by
  cases i with
  | zero => exact ⟨rfl, Option.some.inj h⟩
  | succ i => simp at h

/-- A completed read leaves no other read outstanding. -/
private theorem receiveInv_readHandler {env : Env} {c : Connection} {i : Nat}
    {read : PendingRead} {bytes : Bytes} (error : Bool) (turn : Turn)
    (h : ReceiveInv c) (hread : c.reads[i]? = some read)
    (hbytes : bytes.length ≤ read.target.size) :
    ReceiveInv ((({ c with reads := c.reads.eraseIdx i } : Connection).receive
      read.target bytes).readHandler env read.target error turn) := by
  rcases h.reads with hnil | ⟨isOpen, hheader⟩ | ⟨size, isOpen, hbody, hpos, hlen, h0, h1⟩
  · simp [hnil] at hread
  · rw [hheader] at hread
    obtain ⟨rfl, rfl⟩ := of_getElem?_singleton hread
    have hsize : ReadTarget.header.lo + bytes.length ≤ NETWORKMESSAGE_MAXSIZE := by
      simp only [ReadTarget.lo, ReadTarget.size, HEADER_LENGTH] at hbytes ⊢
      simp only [NETWORKMESSAGE_MAXSIZE]
      omega
    apply receiveInv_parseHeader error turn (h.safe.put hsize)
    · exact fun hkept => (h.kept hkept).put hsize
    · show c.reads.eraseIdx 0 = []
      rw [hheader]
      rfl
  · rw [hbody] at hread
    obtain ⟨rfl, rfl⟩ := of_getElem?_singleton hread
    apply receiveInv_parsePacket error turn
    swap
    · show c.reads.eraseIdx 0 = []
      rw [hbody]
      rfl
    refine
      { safe := h.safe.put ?_
        pos := hpos
        len_pos := ?_
        len_lt := ?_ }
    · simp only [ReadTarget.lo, ReadTarget.size, HEADER_LENGTH] at hbytes ⊢
      simp only [NETWORKMESSAGE_MAXSIZE]
      omega
    · show 2 < c.msg.len
      omega
    · show c.msg.len < 24576
      omega

/-- No script calls a method of a kept message while the body of a frame is
read into it. -/
def BodyUndisturbed (input : Input) (c : Connection) : Prop :=
  match input with
  | .keptMessage _ => ∀ read ∈ c.reads, read.target = .header
  | _ => True

instance (input : Input) (c : Connection) : Decidable (BodyUndisturbed input c) :=
  match input with
  | .keptMessage _ => inferInstanceAs (Decidable (∀ read ∈ c.reads, _))
  | .readDone .. => .isTrue trivial
  | .readFailed .. => .isTrue trivial
  | .readTimerExpires => .isTrue trivial
  | .writeTimerExpires => .isTrue trivial
  | .readTimeout => .isTrue trivial
  | .writeTimeout => .isTrue trivial
  | .writeDone .. => .isTrue trivial
  | .send .. => .isTrue trivial
  | .close => .isTrue trivial
  | .socketClosed => .isTrue trivial

/-- A call on a message into which no body is read. -/
theorem ReceiveInv.keptMessage {c : Connection} (h : ReceiveInv c) (call : MessageCall)
    (hkept : c.handedOver = true) (hheader : ∀ read ∈ c.reads, read.target = .header) :
    ReceiveInv { c with msg := call.on c.msg } := by
  have hbounded : (call.on c.msg).Bounded := (h.kept hkept).on call
  refine ⟨hbounded.safe, fun _ => hbounded, ?_⟩
  rcases h.reads with hnil | hwaits | ⟨size, isOpen, hbody, -⟩
  · exact Or.inl hnil
  · exact Or.inr (Or.inl hwaits)
  · cases hheader ⟨.body size, isOpen⟩ (by rw [hbody]; exact List.mem_singleton_self _)

/-- One input that does not disturb a body keeps the invariant. -/
theorem ReceiveInv.step {env : Env} {input : Input} {c c' : Connection}
    (h : ReceiveInv c) (hbody : BodyUndisturbed input c)
    (hstep : c.step env input = some c') : ReceiveInv c' := by
  cases effect_of_step hstep with
  | readDone turn hread _ hlength =>
      exact receiveInv_readHandler false turn h hread (Nat.le_of_eq hlength)
  | readFailed turn hread hlength =>
      exact receiveInv_readHandler true turn h hread (Nat.le_of_lt hlength)
  | readTimerExpires => exact h.of_sameInput ⟨rfl, rfl, rfl⟩
  | writeTimerExpires => exact h.of_sameInput ⟨rfl, rfl, rfl⟩
  | readTimeout => exact h.of_sameInput (SameInput.close ⟨rfl, rfl, rfl⟩)
  | writeTimeout => exact h.of_sameInput (SameInput.close ⟨rfl, rfl, rfl⟩)
  | written => exact h.of_sameInput ⟨rfl, rfl, rfl⟩
  | writeFailed => exact h.of_sameInput (SameInput.close ⟨rfl, rfl, rfl⟩)
  | sent msg throws => exact h.of_sameInput (send_sameInput c msg throws)
  | closed => exact h.close
  | socketClosed => exact h.of_sameInput ⟨rfl, rfl, rfl⟩
  | keptMessage call hkept => exact h.keptMessage call hkept hbody

theorem receiveInv_run {env : Env} {inputs : List Input} {c c' : Connection}
    (h : ReceiveInv c) (hbody : PartialRun.Obeys (step env) BodyUndisturbed inputs c)
    (hrun : run env inputs c = some c') : ReceiveInv c' :=
  PartialRun.run_preserves_of (fun _ _ _ hs hinput hstep => hs.step hinput hstep)
    inputs c c' h hbody hrun

/-- A connection that waits for a header, with nothing recorded so far, and
whose message nobody has been given yet. -/
def awaitHeader (c : Connection) (isOpen : Bool) : Connection :=
  { c with
    msg := { c.msg with accesses := [] }
    reads := [⟨.header, isOpen⟩]
    handedOver := false }

end Connection

/-- Whatever a connection holds when it waits for a header, and whatever
frames arrive and scripts do from then on, every index of `m_buffer` that is
read or written is inside it, and no counter passes 16 bits, if the scripts
leave a message alone while a body is read into it. -/
theorem receive_bounds (env : Env) (c c' : Connection) (isOpen : Bool)
    (inputs : List Connection.Input)
    (hbody : PartialRun.Obeys (Connection.step env) Connection.BodyUndisturbed inputs
      (c.awaitHeader isOpen))
    (hrun : Connection.run env inputs (c.awaitHeader isOpen) = some c') :
    ∀ access ∈ c'.msg.accesses, access.Safe := by
  have hinv : Connection.ReceiveInv (c.awaitHeader isOpen) :=
    { safe := List.forall_mem_nil _
      kept := Bool.noConfusion
      reads := Or.inr (Or.inl ⟨isOpen, rfl⟩) }
  exact (Connection.receiveInv_run hinv hbody hrun).safe

/-- A logged-in connection with the zero key. -/
def sampleConnection : Connection :=
  { msg := { buffer := fun _ => 0 }, receivedFirst := true }

/-- A frame under the zero key with one string in it. -/
def sampleFrame : Bytes :=
  (encryptMessage (Vector.replicate 4 0)
    (((OutputMessage.create fun _ => 0).addByte 9).addString [104, 105])).outputBytes

/-- Two packets; a script reads and extends the first, and goes on reading
before the header of the second arrives. -/
def sampleCalls : List Connection.Input :=
  [.readDone 0 (sampleFrame.take 2) {},
   .readDone 0 (sampleFrame.drop 2) { script := [.message .getString, .message (.addU32 7)] },
   .keptMessage .getU16, .readDone 0 (sampleFrame.take 2) {},
   .readDone 0 (sampleFrame.drop 2) {}]

/-- The script finds the message bounded. -/
theorem receive_bounds_sample :
    ∃ c, Connection.run sampleEnv sampleCalls (sampleConnection.awaitHeader true) = some c ∧
      c.history = [.dispatched, .dispatched] ∧ ∀ access ∈ c.msg.accesses, access.Safe := by
  have hmap : (Connection.run sampleEnv sampleCalls (sampleConnection.awaitHeader true)).map
      (fun c => c.history) = some [.dispatched, .dispatched] := by
    decide +kernel
  obtain ⟨c, hrun, hhistory⟩ := Option.map_eq_some_iff.mp hmap
  have hbody : PartialRun.Obeys (Connection.step sampleEnv) Connection.BodyUndisturbed
      sampleCalls (sampleConnection.awaitHeader true) := by
    decide +kernel
  exact ⟨c, hrun, hhistory, receive_bounds sampleEnv sampleConnection c true _ hbody hrun⟩

/-! ## A body that is disturbed -/

namespace NetworkMessage

/-- The four bytes are read, and stepped back over or not. -/
theorem afterChecksum_from {m : NetworkMessage} (hread : m.Readable 4) (checksum : BitVec 32) :
    let after := if (m.get .u32).1 ≠ checksum then (m.get .u32).2.skipBytes (-CHECKSUM_LENGTH)
      else (m.get .u32).2
    after.len = m.len ∧ m.pos ≤ after.pos := by
  dsimp only
  have hmax := hread.2
  simp only [NETWORKMESSAGE_MAXSIZE] at hmax
  have hadvance : (m.advance 4).pos = m.pos + 4 := advance_pos (by omega)
  rw [get_of_readable hread]
  split
  · refine ⟨rfl, ?_⟩
    show m.pos ≤ (msgSize (((m.advance 4).pos : Int) + _)).toNat
    rw [hadvance, msgSize_toNat (by simp only [CHECKSUM_LENGTH]; omega)
      (by simp only [CHECKSUM_LENGTH]; omega)]
    simp only [CHECKSUM_LENGTH]
    omega
  · refine ⟨rfl, ?_⟩
    show m.pos ≤ (m.advance 4).pos
    omega

/-- Wherever the cursor stands, the checksum test leaves it there or four bytes
behind. -/
theorem stripChecksum_from {m : NetworkMessage} (hread : m.Readable 4) :
    m.stripChecksum.len = m.len ∧ m.pos ≤ m.stripChecksum.pos := by
  unfold stripChecksum
  dsimp only
  split
  · exact afterChecksum_from (m := (m.load _ _).2) hread _
  · exact afterChecksum_from hread _

theorem mem_accesses_get {m : NetworkMessage} {w : Width} {access : Access}
    (h : access ∈ m.accesses) : access ∈ (m.get w).2.accesses := by
  by_cases hread : m.Readable w.bytes
  · rw [get_of_readable hread]
    exact List.mem_cons_of_mem _ (List.mem_cons_of_mem _ h)
  · rw [get_of_not_readable hread]
    exact h

theorem mem_accesses_getByte {m : NetworkMessage} {access : Access}
    (h : access ∈ m.accesses) : access ∈ m.getByte.2.accesses := by
  by_cases hread : m.Readable 1
  · rw [getByte_of_readable hread]
    exact List.mem_cons_of_mem _ (List.mem_cons_of_mem _ h)
  · rw [getByte_of_not_readable hread]
    exact h

/-- The block loop of `decrypt` takes the length from the header and the place
from the cursor. -/
theorem decrypt_reads {k : Xtea.Key} {m : NetworkMessage} (h : m.len % 8 = 6) :
    Access.read m.pos (m.len - 6) ∈ (Xtea.decrypt k m).2.accesses := by
  have hblocks : 8 * ((m.len - 6 + 7) / 8) = m.len - 6 := by omega
  unfold Xtea.decrypt
  rw [if_neg (by omega)]
  dsimp only
  rw [hblocks]
  have hread : ∀ m' : NetworkMessage, Access.read m.pos (m.len - 6) ∈ m'.accesses →
      Access.read m.pos (m.len - 6) ∈ (m'.get .u16).2.accesses :=
    fun m' => mem_accesses_get
  split
  · exact hread _ (List.mem_cons_of_mem _ List.mem_cons_self)
  · exact List.mem_cons_of_mem _ (hread _ (List.mem_cons_of_mem _ List.mem_cons_self))

end NetworkMessage

namespace Connection

/-- What `decrypt` has read stays recorded when the packet is dispatched and no
script runs. -/
theorem dispatch_accesses {c : Connection} {access : Access}
    (h : access ∈ (Xtea.decrypt c.protocol.key c.msg).2.accesses) :
    access ∈ (c.dispatch {}).msg.accesses := by
  unfold dispatch
  dsimp only
  generalize Xtea.decrypt c.protocol.key c.msg = result at h ⊢
  obtain ⟨accepted, msg⟩ := result
  cases accepted with
  | false => exact h
  | true =>
      dsimp only
      split
      · exact NetworkMessage.mem_accesses_getByte h
      · exact NetworkMessage.mem_accesses_getByte h

theorem armHeaderRead_msg (c : Connection) (throws : Bool) :
    (c.armHeaderRead throws).msg = c.msg := by
  unfold armHeaderRead
  split
  · exact (close_sameInput c).msg
  · rfl

/-- A later packet whose blocks, taken from where the cursor stands, end
behind the buffer. -/
theorem parsePacket_unsafe {env : Env} {c : Connection} (hfirst : c.receivedFirst = true)
    (hclosed : c.closed = false) (hread : c.msg.Readable 4) (hlen : c.msg.len % 8 = 6)
    (hover : NETWORKMESSAGE_MAXSIZE < c.msg.pos + (c.msg.len - 6)) :
    ∃ access ∈ (c.parsePacket env false {}).msg.accesses, ¬ access.Safe := by
  obtain ⟨hsame, hpos⟩ := NetworkMessage.stripChecksum_from hread
  have hblocks : Access.read c.msg.stripChecksum.pos (c.msg.stripChecksum.len - 6) ∈
      (Xtea.decrypt c.protocol.key c.msg.stripChecksum).2.accesses :=
    NetworkMessage.decrypt_reads (hsame ▸ hlen)
  refine ⟨.read c.msg.stripChecksum.pos (c.msg.stripChecksum.len - 6), ?_, fun hsafe => ?_⟩
  · unfold parsePacket handlePacket
    rw [if_neg Bool.false_ne_true]
    dsimp only
    rw [if_neg (by rw [hclosed]; exact Bool.false_ne_true), if_pos hfirst]
    have hdispatched := dispatch_accesses (c := { c with
      readTimer := c.readTimer.cancel, msg := c.msg.stripChecksum }) hblocks
    split
    · exact hdispatched
    · rw [armHeaderRead_msg]
      exact hdispatched
  · rw [hsame] at hsafe
    simp only [Access.Safe] at hsafe
    omega

/-- The largest body there is arrives, and the cursor is where three 64-bit
values have left it. -/
theorem readDone_unsafe (env : Env) {c : Connection} {bytes : Bytes} (hpos : c.msg.pos = 26)
    (hlen : c.msg.len = 24574) (hreads : c.reads = [⟨.body 24572, true⟩])
    (hfirst : c.receivedFirst = true) (hclosed : c.closed = false)
    (hescaped : c.escaped = none) (hbytes : bytes.length = 24572) :
    ∃ c', c.step env (.readDone 0 bytes {}) = some c' ∧
      ∃ access ∈ c'.msg.accesses, ¬ access.Safe := by
  have hstep := step_readDone env {} hreads hescaped hbytes
  simp only [readHandler] at hstep
  refine ⟨_, hstep, parsePacket_unsafe hfirst hclosed ?_ ?_ ?_⟩
  · show c.msg.pos + 4 ≤ c.msg.len + 8 ∧ c.msg.pos + 4 < NETWORKMESSAGE_MAXSIZE
    rw [hpos, hlen]
    decide
  · show c.msg.len % 8 = 6
    rw [hlen]
  · show NETWORKMESSAGE_MAXSIZE < c.msg.pos + (c.msg.len - 6)
    rw [hpos, hlen]
    decide

end Connection

/-- A packet of which a script keeps the message; the script reads it on when
the header of the next has arrived. -/
def keptCalls : List Connection.Input :=
  [.readDone 0 (sampleFrame.take 2) {}, .readDone 0 (sampleFrame.drop 2) {},
   .readDone 0 [252, 95] {}, .keptMessage .getU64, .keptMessage .getU64,
   .keptMessage .getU64]

/-- The blocks of the next body are deciphered from index 26 on, and the last
of them ends four bytes behind the buffer. -/
theorem receive_bounds_kept :
    ∃ c, Connection.run sampleEnv (keptCalls ++ [.readDone 0 (List.replicate 24572 0) {}])
        (sampleConnection.awaitHeader true) = some c ∧
      ∃ access ∈ c.msg.accesses, ¬ access.Safe := by
  have hmap : (Connection.run sampleEnv keptCalls (sampleConnection.awaitHeader true)).map
      (fun c => (c.msg.pos, c.msg.len, c.reads, c.receivedFirst, c.closed, c.escaped.isSome)) =
        some (26, 24574, [⟨.body 24572, true⟩], true, false, false) := by
    decide +kernel
  obtain ⟨c, hrun, heq⟩ := Option.map_eq_some_iff.mp hmap
  rw [Connection.run] at hrun
  simp only [Prod.mk.injEq] at heq
  obtain ⟨hpos, hlen, hreads, hfirst, hclosed, hescaped⟩ := heq
  obtain ⟨c', hstep, hunsafe⟩ := Connection.readDone_unsafe sampleEnv hpos hlen hreads hfirst
    hclosed (Option.not_isSome_iff_eq_none.mp (by simp [hescaped]))
    (List.length_replicate (n := 24572) (a := (0 : UInt8)))
  refine ⟨c', ?_, hunsafe⟩
  rw [Connection.run, PartialRun.run_append, hrun, Option.bind_some, PartialRun.run, hstep]
  rfl

end LoginServer.Network
