import LoginServer.Network.Protocol
import LoginServer.Script.LuaMessage
import LoginServer.Verified.PartialRun

/-!
# `Connection`: handlers, timers and outstanding operations

One `Connection` with the `Protocol` it owns, as a state machine.  A handler
runs to its end under `m_connectionLock`; between handlers the state says
which asynchronous operations are outstanding.  `Input` lists everything that
can happen next, `step` is the handler it runs, and a run is a list of
inputs.

What is assumed of asio is in `step`: an operation completes at most once, a
cancelled wait never reaches the close in `handleTimeout`, and an
`async_read` that was started on a closed socket completes with an error.
The ghost field `history` records which of the two `Protocol` entry points
ran, `handedOver` whether a script was ever given `args.msg`, and `escaped` an
exception that left a handler.

`args.msg` is the address of `m_msg`: a script that keeps it may call its
methods at any later time.  Such a call is taken to run between two handlers,
and while the connection exists.
-/

namespace LoginServer.Network

open LoginServer.Verified.ByteMemory
open LoginServer.Verified
open LoginServer.Utils
open LoginServer.Script (MessageCall)

/-- The exceptions that matter to `Server::open`. -/
inductive Thrown where
  | systemError
  | cryptoException
  deriving DecidableEq, Repr

/-- A `deadline_timer`: waits that are pending, and waits that expired and
whose handler has not run yet.  A wait in the second state can no longer be
cancelled. -/
structure Timer where
  waits : Nat := 0
  expired : Nat := 0
  deriving DecidableEq, Repr

/-- `expires_from_now` cancels the pending waits, `async_wait` adds one. -/
def Timer.arm (t : Timer) : Timer := { t with waits := 1 }

def Timer.cancel (t : Timer) : Timer := { t with waits := 0 }

/-- What an `async_read` was asked for. -/
inductive ReadTarget where
  | header
  | body (size : Nat)
  deriving DecidableEq, Repr

def ReadTarget.lo : ReadTarget → Nat
  | .header => 0
  | .body _ => HEADER_LENGTH

def ReadTarget.size : ReadTarget → Nat
  | .header => HEADER_LENGTH
  | .body size => size

/-- An outstanding `async_read`, and whether the socket was open when it was
started. -/
structure PendingRead where
  target : ReadTarget
  socketOpen : Bool
  deriving DecidableEq, Repr

/-- The `Protocol` entry points, as they are executed. -/
inductive Milestone where
  | authenticated (login : Login)
  | dispatched
  deriving DecidableEq

structure Connection where
  msg : NetworkMessage
  protocol : Protocol := {}
  closed : Bool := false
  receivedFirst : Bool := false
  socketOpen : Bool := true
  registered : Bool := true
  readTimer : Timer := {}
  writeTimer : Timer := {}
  reads : List PendingRead := []
  /-- the frames whose `async_write` is outstanding -/
  writes : List Bytes := []
  history : List Milestone := []
  /-- `onReceiveNetworkMessage` has been emitted with `m_msg` -/
  handedOver : Bool := false
  escaped : Option Thrown := none

/-- What a subscriber of `onReceiveNetworkMessage` does to this connection:
calls on `args.msg`, and sends through `args.client`. -/
inductive ScriptAction where
  | message (call : MessageCall)
  | send (msg : OutputMessage) (throws : Bool)

/-- What the surroundings contribute to one run of a handler: the clock, the
memory a message on the stack is built in, the subscribers' actions, and
whether the `try` blocks around the two timers throw. -/
structure Turn where
  now : Nat := 0
  stack : Memory := fun _ => 0
  script : List ScriptAction := []
  readArmThrows : Bool := false
  writeArmThrows : Bool := false

namespace Connection

/-! ## Closing -/

def closeSocket (c : Connection) : Connection :=
  if c.socketOpen then
    { c with
      readTimer := c.readTimer.cancel
      writeTimer := c.writeTimer.cancel
      socketOpen := false }
  else c

def close (c : Connection) : Connection :=
  let c := { c with registered := false }
  if c.closed then c else { c with closed := true }.closeSocket

/-! ## Sending -/

/-- `send` and `internalSend`; the message is encrypted before anything can
throw. -/
def send (c : Connection) (msg : OutputMessage) (throws : Bool) : Connection :=
  let msg := encryptMessage c.protocol.key msg
  if throws then c.close
  else
    { c with
      writeTimer := c.writeTimer.arm
      writes := c.writes ++ [msg.outputBytes] }

/-- `Protocol::disconnectClient`. -/
def disconnectClient (c : Connection) (turn : Turn) (message : Bytes) :
    Connection :=
  (c.send (errorMessage turn.stack message) turn.writeArmThrows).close

/-- `onWriteOperation`. -/
def onWriteOperation (c : Connection) (error : Bool) : Connection :=
  let c := { c with writeTimer := c.writeTimer.cancel }
  if error then c.close else c

/-! ## Protocol -/

/-- The members `authenticate` assigns, as far as it got: `m_key` once the key
is read, `m_account` once the database has answered. -/
def storeLogin (c : Connection) (login : Login) (msg : NetworkMessage) :
    Connection :=
  { c with
    msg
    protocol :=
      { c.protocol with
        key := login.key.getD c.protocol.key
        account := login.account.getD c.protocol.account }
    history := c.history ++ [Milestone.authenticated login] }

/-- `Protocol::authenticate`: the reads of `readLogin`, and the answer its
branch gives. -/
def authenticate (env : Env) (c : Connection) (turn : Turn) : Connection :=
  let (login, msg) := readLogin env c.msg
  let c := c.storeLogin login msg
  match login.branch with
  | .threw => { c with escaped := some .cryptoException }
  | .rsaRejected => c.close
  | .versionRejected =>
      c.disconnectClient turn
        (text "Only clients with protocol " ++ env.versionStr ++ text " allowed!")
  | .emptyEmail => c.disconnectClient turn (text "Invalid account email.")
  | .emptyPassword => c.disconnectClient turn (text "Invalid password.")
  | .badAccount => c.disconnectClient turn (text "Invalid account email or password.")
  | .accepted =>
      c.send (loginReply env turn.now turn.stack c.protocol.account)
        turn.writeArmThrows

def runAction (c : Connection) : ScriptAction → Connection
  | .message call => { c with msg := call.on c.msg }
  | .send msg throws => c.send msg throws

/-- `Protocol::parsePacket`; the emit runs the subscribers. -/
def dispatch (c : Connection) (turn : Turn) : Connection :=
  let c := { c with history := c.history ++ [Milestone.dispatched] }
  match Xtea.decrypt c.protocol.key c.msg with
  | (false, msg) => { c with msg }
  | (true, msg) =>
      let (opcode, msg) := msg.getByte
      let c := { c with msg }
      if opcode = Opcode.ping.toByte then
        { c with protocol := { c.protocol with lastPingTime := turn.now } }
      else turn.script.foldl runAction { c with handedOver := true }

end Connection

namespace NetworkMessage

/-- The checksum test of `Connection::parsePacket`: the sum of what follows
the first four bytes, those four bytes, and a step back where they differ. -/
def stripChecksum (m : NetworkMessage) : NetworkMessage :=
  let len := (m.len : Int) - m.pos - CHECKSUM_LENGTH
  let (checksum, m) :=
    if len > 0 then
      let (data, m) := m.load (m.pos + CHECKSUM_LENGTH) len.toNat
      (adlerChecksum data, m)
    else (0, m)
  let (recvChecksum, m) := m.get .u32
  if recvChecksum ≠ checksum then m.skipBytes (-CHECKSUM_LENGTH) else m

/-- The sum `stripChecksum` computes over a body that starts at index 2. -/
def bodyChecksum (m : NetworkMessage) : BitVec 32 :=
  if m.len > 6 then adlerChecksum (read m.buffer 6 (m.len - 6)) else 0

/-- The first four bytes of the body are its checksum. -/
def ChecksumMatches (m : NetworkMessage) : Prop :=
  Width.decode .u32 (read m.buffer 2 4) = m.bodyChecksum

instance (m : NetworkMessage) : Decidable m.ChecksumMatches :=
  inferInstanceAs (Decidable (_ = _))

/-- The message after the sum over the body. -/
def summed (m : NetworkMessage) : NetworkMessage :=
  if m.len > 6 then m.log (.read 6 (m.len - 6)) else m

/-- With the cursor on the body the checksum is always read, however short
the frame is: `canRead` allows eight bytes more than the length. -/
theorem stripChecksum_eq {m : NetworkMessage} (hpos : m.pos = 2) :
    m.stripChecksum =
      if m.ChecksumMatches then m.summed.advance 4
      else (m.summed.advance 4).skipBytes (-CHECKSUM_LENGTH) := by
  have hsummed : m.summed.pos = 2 ∧ m.summed.len = m.len ∧
      m.summed.buffer = m.buffer := by
    unfold summed
    split <;> exact ⟨hpos, rfl, rfl⟩
  have hread : m.summed.Readable (Width.bytes .u32) := by
    unfold Readable
    simp only [hsummed, Width.bytes, NETWORKMESSAGE_MAXSIZE]
    omega
  have hsum : (if (m.len : Int) - m.pos - CHECKSUM_LENGTH > 0 then
      let (data, m') := m.load (m.pos + CHECKSUM_LENGTH)
        ((m.len : Int) - m.pos - CHECKSUM_LENGTH).toNat
      (adlerChecksum data, m')
      else (0, m)) = (m.bodyChecksum, m.summed) := by
    unfold bodyChecksum summed
    simp only [hpos, CHECKSUM_LENGTH]
    by_cases hlen : m.len > 6
    · rw [if_pos hlen, if_pos hlen, if_pos (by omega),
        show ((m.len : Int) - (2 : Nat) - (4 : Nat)).toNat = m.len - 6 by omega]
      rfl
    · rw [if_neg hlen, if_neg hlen, if_neg (by omega)]
  unfold stripChecksum
  dsimp only at hsum ⊢
  rw [hsum]
  dsimp only
  rw [get_of_readable hread]
  simp only [hsummed]
  by_cases hmatch : m.ChecksumMatches
  · rw [if_pos hmatch]
    exact if_neg (not_not_intro hmatch)
  · rw [if_neg hmatch]
    exact if_pos hmatch

section
variable {m : NetworkMessage} (hpos : m.pos = 2)
include hpos

theorem stripChecksum_buffer : m.stripChecksum.buffer = m.buffer := by
  rw [stripChecksum_eq hpos]
  unfold summed
  split <;> split <;> rfl

theorem stripChecksum_len : m.stripChecksum.len = m.len := by
  rw [stripChecksum_eq hpos]
  unfold summed
  split <;> split <;> rfl

theorem stripChecksum_overrun : m.stripChecksum.overrun = m.overrun := by
  rw [stripChecksum_eq hpos]
  unfold summed
  split <;> split <;> rfl

/-- The body starts behind its checksum, or at the four bytes that are not
its checksum. -/
theorem stripChecksum_pos :
    m.stripChecksum.pos = if m.ChecksumMatches then 6 else 2 := by
  have hsummed : m.summed.pos = 2 := by
    unfold summed
    split <;> exact hpos
  have hadvance : (m.summed.advance 4).pos = 6 := by
    rw [advance_pos (by omega), hsummed]
  rw [stripChecksum_eq hpos]
  split
  · exact hadvance
  · show (msgSize _).toNat = 2
    rw [hadvance]
    decide

end

end NetworkMessage

namespace Connection

/-! ## Receiving -/

/-- The `try` block that waits for the next packet. -/
def armHeaderRead (c : Connection) (throws : Bool) : Connection :=
  if throws then c.close
  else
    { c with
      readTimer := c.readTimer.arm
      reads := c.reads ++ [⟨.header, c.socketOpen⟩] }

/-- `accept`: the state in which the first handler finds the connection. -/
def accept (memory : Memory) : Connection :=
  armHeaderRead { msg := { buffer := memory } } false

def parseHeader (c : Connection) (error : Bool) (turn : Turn) : Connection :=
  let c := { c with readTimer := c.readTimer.cancel }
  if error then c.close
  else
    let size := c.msg.getLengthHeader
    let c := { c with msg := c.msg.log (.read 0 HEADER_LENGTH) }
    if size = 0 ∨ size ≥ NETWORKMESSAGE_MAXSIZE - 16 then c.close
    else if turn.readArmThrows then c.close
    else
      { c with
        readTimer := c.readTimer.arm
        msg := (c.msg.setLength (size + HEADER_LENGTH)).getBodyBuffer
        reads := c.reads ++ [⟨.body size, c.socketOpen⟩] }

/-- The middle of `parsePacket`: the first packet is authenticated, after its
protocol id is skipped, every later one is dispatched. -/
def handlePacket (env : Env) (c : Connection) (turn : Turn) : Connection :=
  if c.receivedFirst then c.dispatch turn
  else
    ({ c with receivedFirst := true, msg := c.msg.skipBytes 1 } : Connection).authenticate
      env turn

def parsePacket (env : Env) (c : Connection) (error : Bool) (turn : Turn) :
    Connection :=
  let c := { c with readTimer := c.readTimer.cancel }
  if error then c.close
  else if c.closed then c
  else
    let c := { c with msg := c.msg.stripChecksum }
    let c := c.handlePacket env turn
    if c.escaped.isSome then c else c.armHeaderRead turn.readArmThrows

/-- `handleTimeout` for a wait that was not aborted. -/
def handleTimeout (c : Connection) : Connection := c.close

/-- The bytes of a completed read arrive in the buffer. -/
def receive (c : Connection) (target : ReadTarget) (bytes : Bytes) : Connection :=
  { c with msg := c.msg.put target.lo bytes }

/-- The handler bound to a read. -/
def readHandler (env : Env) (c : Connection) (target : ReadTarget)
    (error : Bool) (turn : Turn) : Connection :=
  match target with
  | .header => c.parseHeader error turn
  | .body _ => c.parsePacket env error turn

/-! ## The state machine -/

/-- What can happen to a connection between two handlers: to its operations,
through its own methods, and to its message. -/
inductive Input where
  /-- the `i`-th outstanding read completes with `bytes` -/
  | readDone (i : Nat) (bytes : Bytes) (turn : Turn)
  /-- it completes with an error, after `bytes` arrived -/
  | readFailed (i : Nat) (bytes : Bytes) (turn : Turn)
  | readTimerExpires
  | writeTimerExpires
  /-- the handler of an expired wait runs -/
  | readTimeout
  | writeTimeout
  | writeDone (i : Nat) (error : Bool)
  /-- a send from outside a read handler -/
  | send (msg : OutputMessage) (throws : Bool)
  | close
  /-- `ConnectionManager::closeAll` -/
  | socketClosed
  /-- a script calls a method of the `args.msg` it was given earlier -/
  | keptMessage (call : MessageCall)

def Timer.expire? (t : Timer) : Option Timer :=
  if t.waits > 0 then some ⟨t.waits - 1, t.expired + 1⟩ else none

def Timer.handle? (t : Timer) : Option Timer :=
  if t.expired > 0 then some { t with expired := t.expired - 1 } else none

/-- One input; `none` when it cannot happen in this state, and always `none`
once an exception has left a handler. -/
def step (env : Env) (input : Input) (c : Connection) : Option Connection :=
  if c.escaped.isSome then none
  else
    match input with
    | .readDone i bytes turn => do
        let read ← c.reads[i]?
        guard (read.socketOpen = true ∧ bytes.length = read.target.size)
        let c := { c with reads := c.reads.eraseIdx i }
        some ((c.receive read.target bytes).readHandler env read.target false turn)
    | .readFailed i bytes turn => do
        let read ← c.reads[i]?
        guard (bytes.length < read.target.size)
        let c := { c with reads := c.reads.eraseIdx i }
        some ((c.receive read.target bytes).readHandler env read.target true turn)
    | .readTimerExpires => do
        let readTimer ← Timer.expire? c.readTimer
        some { c with readTimer }
    | .writeTimerExpires => do
        let writeTimer ← Timer.expire? c.writeTimer
        some { c with writeTimer }
    | .readTimeout => do
        let readTimer ← Timer.handle? c.readTimer
        some ({ c with readTimer }).handleTimeout
    | .writeTimeout => do
        let writeTimer ← Timer.handle? c.writeTimer
        some ({ c with writeTimer }).handleTimeout
    | .writeDone i error => do
        let _ ← c.writes[i]?
        some (({ c with writes := c.writes.eraseIdx i }).onWriteOperation error)
    | .send msg throws => some (c.send msg throws)
    | .close => some c.close
    | .socketClosed => some { c with socketOpen := false, registered := false }
    | .keptMessage call => do
        guard (c.handedOver = true)
        some { c with msg := call.on c.msg }

/-- Everything an input can do to a connection. -/
inductive Effect (env : Env) (c : Connection) : Input → Connection → Prop where
  | readDone {i : Nat} {read : PendingRead} {bytes : Bytes} (turn : Turn) :
      c.reads[i]? = some read → read.socketOpen = true → bytes.length = read.target.size →
      Effect env c (.readDone i bytes turn)
        ((({ c with reads := c.reads.eraseIdx i } : Connection).receive
          read.target bytes).readHandler env read.target false turn)
  | readFailed {i : Nat} {read : PendingRead} {bytes : Bytes} (turn : Turn) :
      c.reads[i]? = some read → bytes.length < read.target.size →
      Effect env c (.readFailed i bytes turn)
        ((({ c with reads := c.reads.eraseIdx i } : Connection).receive
          read.target bytes).readHandler env read.target true turn)
  | readTimerExpires {readTimer : Timer} : Timer.expire? c.readTimer = some readTimer →
      Effect env c .readTimerExpires { c with readTimer }
  | writeTimerExpires {writeTimer : Timer} : Timer.expire? c.writeTimer = some writeTimer →
      Effect env c .writeTimerExpires { c with writeTimer }
  | readTimeout {readTimer : Timer} : Timer.handle? c.readTimer = some readTimer →
      Effect env c .readTimeout ({ c with readTimer } : Connection).close
  | writeTimeout {writeTimer : Timer} : Timer.handle? c.writeTimer = some writeTimer →
      Effect env c .writeTimeout ({ c with writeTimer } : Connection).close
  | written (i : Nat) : i < c.writes.length →
      Effect env c (.writeDone i false)
        { c with writes := c.writes.eraseIdx i, writeTimer := c.writeTimer.cancel }
  | writeFailed (i : Nat) : i < c.writes.length →
      Effect env c (.writeDone i true)
        ({ c with writes := c.writes.eraseIdx i, writeTimer := c.writeTimer.cancel } :
          Connection).close
  | sent (msg : OutputMessage) (throws : Bool) :
      Effect env c (.send msg throws) (c.send msg throws)
  | closed : Effect env c .close c.close
  | socketClosed : Effect env c .socketClosed { c with socketOpen := false, registered := false }
  | keptMessage (call : MessageCall) : c.handedOver = true →
      Effect env c (.keptMessage call) { c with msg := call.on c.msg }

/-- Inversion of `step`. -/
theorem effect_of_step {env : Env} {input : Input} {c c' : Connection}
    (h : c.step env input = some c') : Effect env c input c' := by
  unfold step at h
  split at h
  · cases h
  cases input with
  | readDone i bytes turn =>
      simp only [Option.bind_eq_bind, Option.bind_eq_some_iff] at h
      obtain ⟨read, hread, _, hguard, h⟩ := h
      have hbytes : read.socketOpen = true ∧ bytes.length = read.target.size :=
        PartialRun.of_guard_eq_some hguard
      cases h
      exact .readDone turn hread hbytes.1 hbytes.2
  | readFailed i bytes turn =>
      simp only [Option.bind_eq_bind, Option.bind_eq_some_iff] at h
      obtain ⟨read, hread, _, hguard, h⟩ := h
      cases h
      exact .readFailed turn hread (PartialRun.of_guard_eq_some hguard)
  | readTimerExpires =>
      simp only [Option.bind_eq_bind, Option.bind_eq_some_iff] at h
      obtain ⟨timer, htimer, h⟩ := h
      cases h
      exact .readTimerExpires htimer
  | writeTimerExpires =>
      simp only [Option.bind_eq_bind, Option.bind_eq_some_iff] at h
      obtain ⟨timer, htimer, h⟩ := h
      cases h
      exact .writeTimerExpires htimer
  | readTimeout =>
      simp only [Option.bind_eq_bind, Option.bind_eq_some_iff] at h
      obtain ⟨timer, htimer, h⟩ := h
      cases h
      exact .readTimeout htimer
  | writeTimeout =>
      simp only [Option.bind_eq_bind, Option.bind_eq_some_iff] at h
      obtain ⟨timer, htimer, h⟩ := h
      cases h
      exact .writeTimeout htimer
  | writeDone i error =>
      simp only [Option.bind_eq_bind, Option.bind_eq_some_iff] at h
      obtain ⟨frame, hframe, h⟩ := h
      have hi := (List.getElem?_eq_some_iff.mp hframe).1
      cases h
      cases error with
      | false => exact .written i hi
      | true => exact .writeFailed i hi
  | send msg throws =>
      cases h
      exact .sent msg throws
  | close =>
      cases h
      exact .closed
  | socketClosed =>
      cases h
      exact .socketClosed
  | keptMessage call =>
      simp only [Option.bind_eq_bind, Option.bind_eq_some_iff] at h
      obtain ⟨_, hguard, h⟩ := h
      cases h
      exact .keptMessage call (PartialRun.of_guard_eq_some hguard)

/-- The same without the input: the timers and the writes may be anything. -/
inductive Stepped (env : Env) (c : Connection) : Connection → Prop where
  /-- a read completes and its handler runs -/
  | read {i : Nat} {read : PendingRead} {bytes : Bytes} (error : Bool) (turn : Turn)
      (hread : c.reads[i]? = some read) (hbytes : bytes.length ≤ read.target.size)
      (hdone : error = false → read.socketOpen = true ∧ bytes.length = read.target.size) :
      Stepped env c ((({ c with reads := c.reads.eraseIdx i } : Connection).receive
        read.target bytes).readHandler env read.target error turn)
  /-- timers, completed writes, and the socket, which is never opened again -/
  | other (readTimer writeTimer : Timer) (writes : List Bytes) (socketOpen registered : Bool)
      (hsocket : socketOpen = true → c.socketOpen = true) :
      Stepped env c { c with readTimer, writeTimer, writes, socketOpen, registered }
  /-- the same, and the connection is closed -/
  | closed (readTimer writeTimer : Timer) (writes : List Bytes) :
      Stepped env c ({ c with readTimer, writeTimer, writes } : Connection).close
  | sent (msg : OutputMessage) (throws : Bool) : Stepped env c (c.send msg throws)
  | called (call : MessageCall) : Stepped env c { c with msg := call.on c.msg }

theorem Effect.stepped {env : Env} {input : Input} {c c' : Connection}
    (h : Effect env c input c') : Stepped env c c' := by
  cases h with
  | readDone turn hread hopen hlength =>
      exact .read false turn hread (Nat.le_of_eq hlength) fun _ => ⟨hopen, hlength⟩
  | readFailed turn hread hlength =>
      exact .read true turn hread (Nat.le_of_lt hlength) Bool.noConfusion
  | readTimerExpires htimer => exact .other _ _ _ _ _ id
  | writeTimerExpires htimer => exact .other _ _ _ _ _ id
  | readTimeout htimer => exact .closed _ _ _
  | writeTimeout htimer => exact .closed _ _ _
  | written i hi => exact .other _ _ _ _ _ id
  | writeFailed i hi => exact .closed _ _ _
  | sent msg throws => exact .sent msg throws
  | closed => exact .closed _ _ _
  | socketClosed => exact .other _ _ _ _ _ Bool.noConfusion
  | keptMessage call => exact .called call

theorem step_cases {env : Env} {input : Input} {c c' : Connection}
    (h : c.step env input = some c') : c.escaped = none ∧ Stepped env c c' := by
  refine ⟨?_, (effect_of_step h).stepped⟩
  unfold step at h
  split at h
  · cases h
  · rename_i hescaped
    simpa using hescaped

section
variable (env : Env) {c : Connection} {target : ReadTarget} {bytes : Bytes} (turn : Turn)

/-- The one outstanding read completes. -/
theorem step_readDone (hreads : c.reads = [⟨target, true⟩]) (hescaped : c.escaped = none)
    (hlen : bytes.length = target.size) :
    c.step env (.readDone 0 bytes turn) =
      some ((({ c with reads := [] } : Connection).receive target bytes).readHandler
        env target false turn) := by
  unfold step
  simp [hreads, hescaped, hlen]

/-- The one outstanding read fails on the way. -/
theorem step_readFailed {isOpen : Bool} (hreads : c.reads = [⟨target, isOpen⟩])
    (hescaped : c.escaped = none) (hlen : bytes.length < target.size) :
    c.step env (.readFailed 0 bytes turn) =
      some ((({ c with reads := [] } : Connection).receive target bytes).readHandler
        env target true turn) := by
  unfold step
  simp [hreads, hescaped, hlen]

end

/-- The state after a list of inputs. -/
abbrev run (env : Env) (inputs : List Input) (c : Connection) : Option Connection :=
  PartialRun.run (step env) inputs c

end Connection

end LoginServer.Network
