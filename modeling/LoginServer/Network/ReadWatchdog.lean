import LoginServer.Network.Watchdog

/-!
# The read watchdog

`accept`, `parseHeader` and `parsePacket` each end in one `async_read` into
the shared buffer and arm the read timer for it.  What lies between two reads
is listed state by state, so that the buffer can be seen to belong to the
handler alone while it and the scripts below it run.

## Main results

* `ends_readHandler` — the last of the listed states, and how it is left.
* `Watched.step` — one input keeps exactly one guarded read.
* `read_watchdog` — every state of every run.
-/

namespace LoginServer.Network

open LoginServer.Verified
open LoginServer.Verified.ByteMemory
open LoginServer.Utils

namespace Connection

/-! ## The states inside a handler -/

/-- The states of `dispatch`: before the packet is deciphered, behind its
opcode, and after each action of a subscriber. -/
def dispatchStates (c : Connection) (turn : Turn) : List Connection :=
  let c := { c with history := c.history ++ [Milestone.dispatched] }
  match Xtea.decrypt c.protocol.key c.msg with
  | (false, msg) => [c, { c with msg }]
  | (true, msg) =>
      let (opcode, msg) := msg.getByte
      let d := { c with msg }
      if opcode = Opcode.ping.toByte then
        [c, d, { d with protocol := { d.protocol with lastPingTime := turn.now } }]
      else c :: turn.script.scanl runAction { d with handedOver := true }

/-- The states of `authenticate`: its reads, and the answer. -/
def authenticateStates (env : Env) (c : Connection) (turn : Turn) : List Connection :=
  let (login, msg) := readLogin env c.msg
  [c, c.storeLogin login msg, c.authenticate env turn]

/-- The states of `parseHeader` before its `async_read`. -/
def headerStates (c : Connection) (error : Bool) (turn : Turn) : List Connection :=
  let c := { c with readTimer := c.readTimer.cancel }
  if error then [c]
  else
    let size := c.msg.getLengthHeader
    let d := { c with msg := c.msg.log (.read 0 HEADER_LENGTH) }
    if size = 0 ∨ size ≥ NETWORKMESSAGE_MAXSIZE - 16 then [c, d]
    else if turn.readArmThrows then [c, d]
    else
      [c, d,
        { d with
          readTimer := d.readTimer.arm
          msg := (d.msg.setLength (size + HEADER_LENGTH)).getBodyBuffer }]

/-- The states of `parsePacket` before its last `try` block. -/
def packetStates (env : Env) (c : Connection) (error : Bool) (turn : Turn) :
    List Connection :=
  let c := { c with readTimer := c.readTimer.cancel }
  if error then [c]
  else if c.closed then [c]
  else
    let d := { c with msg := c.msg.stripChecksum }
    c :: d ::
      if d.receivedFirst then d.dispatchStates turn
      else
        ({ d with receivedFirst := true, msg := d.msg.skipBytes 1 } :
          Connection).authenticateStates env turn

def handlerStates (env : Env) (c : Connection) (target : ReadTarget) (error : Bool)
    (turn : Turn) : List Connection :=
  match target with
  | .header => c.headerStates error turn
  | .body _ => c.packetStates env error turn

/-- How a handler goes on from its last state. -/
inductive Ends (d : Connection) : Connection → Prop where
  | threw : d.escaped.isSome → Ends d d
  | gone : d.closed = true → Ends d d
  | close : Ends d d.close
  | header (throws : Bool) : Ends d (d.armHeaderRead throws)
  | body (size : Nat) : d.readTimer.Armed →
      Ends d { d with reads := d.reads ++ [⟨.body size, d.socketOpen⟩] }

theorem dispatchStates_getLast? (c : Connection) (turn : Turn) :
    (c.dispatchStates turn).getLast? = some (c.dispatch turn) := by
  unfold dispatchStates dispatch
  dsimp only
  cases Xtea.decrypt c.protocol.key c.msg with
  | mk accepted msg =>
      cases accepted with
      | false => rfl
      | true =>
          dsimp only
          split
          · rfl
          · rw [List.getLast?_cons, List.getLast?_scanl]
            rfl

theorem handlePacket_getLast? (env : Env) (d : Connection) (turn : Turn) :
    (if d.receivedFirst then d.dispatchStates turn
      else
        ({ d with receivedFirst := true, msg := d.msg.skipBytes 1 } :
          Connection).authenticateStates env turn).getLast? =
      some (d.handlePacket env turn) := by
  unfold handlePacket
  split
  · exact dispatchStates_getLast? d turn
  · rfl

theorem ends_parseHeader (c : Connection) (error : Bool) (turn : Turn) :
    ∃ d, (c.headerStates error turn).getLast? = some d ∧
      Ends d (c.parseHeader error turn) := by
  unfold headerStates parseHeader
  dsimp only
  split
  · exact ⟨_, rfl, .close⟩
  · split
    · exact ⟨_, rfl, .close⟩
    · split
      · exact ⟨_, rfl, .close⟩
      · exact ⟨_, rfl, .body _ (Timer.armed_arm _)⟩

theorem ends_parsePacket (env : Env) (c : Connection) (error : Bool) (turn : Turn) :
    ∃ d, (c.packetStates env error turn).getLast? = some d ∧
      Ends d (c.parsePacket env error turn) := by
  unfold packetStates parsePacket
  dsimp only
  split
  · exact ⟨_, rfl, .close⟩
  · split
    · rename_i hclosed
      exact ⟨_, rfl, .gone hclosed⟩
    · have hlast := handlePacket_getLast? env
        { c with readTimer := c.readTimer.cancel, msg := c.msg.stripChecksum } turn
      refine ⟨handlePacket env
        { c with readTimer := c.readTimer.cancel, msg := c.msg.stripChecksum } turn, ?_, ?_⟩
      · dsimp only at hlast
        rw [List.getLast?_cons, List.getLast?_cons, hlast]
        rfl
      · split
        · rename_i hescaped
          exact .threw hescaped
        · exact .header _

/-- The last of the listed states is the one the handler ends from. -/
theorem ends_readHandler (env : Env) (c : Connection) (target : ReadTarget) (error : Bool)
    (turn : Turn) :
    ∃ d, (c.handlerStates env target error turn).getLast? = some d ∧
      Ends d (c.readHandler env target error turn) := by
  cases target with
  | header => exact ends_parseHeader c error turn
  | body size => exact ends_parsePacket env c error turn

/-! ## The buffer belongs to the handler -/

theorem runAction_reads (c : Connection) (action : ScriptAction) :
    (c.runAction action).reads = c.reads := by
  cases action with
  | message call => rfl
  | send msg throws => exact (send_sameInput c msg throws).reads

/-- A list of states in which no read is outstanding. -/
def NoReads (states : List Connection) : Prop := ∀ d ∈ states, d.reads = []

@[simp] theorem noReads_nil : NoReads [] := fun _ hd => nomatch hd

@[simp] theorem noReads_cons {c : Connection} {states : List Connection} :
    NoReads (c :: states) ↔ c.reads = [] ∧ NoReads states := List.forall_mem_cons

theorem noReads_scanl {c : Connection} (h : c.reads = []) (actions : List ScriptAction) :
    NoReads (actions.scanl runAction c) := by
  induction actions generalizing c with
  | nil => simp [h]
  | cons action actions ih =>
      have hnext := ih ((runAction_reads c action).trans h)
      simp [h, hnext]

theorem noReads_dispatchStates {c : Connection} (h : c.reads = []) (turn : Turn) :
    NoReads (c.dispatchStates turn) := by
  unfold dispatchStates
  dsimp only
  split
  · simp [h]
  · split
    · simp [h]
    · simp [h, noReads_scanl]

theorem noReads_authenticateStates (env : Env) {c : Connection} (h : c.reads = [])
    (turn : Turn) : NoReads (c.authenticateStates env turn) := by
  have hanswer : (c.authenticate env turn).reads = [] :=
    (authenticate_input env c turn).2.trans h
  simp [authenticateStates, storeLogin, h, hanswer]

theorem noReads_headerStates {c : Connection} (h : c.reads = []) (error : Bool)
    (turn : Turn) : NoReads (c.headerStates error turn) := by
  unfold headerStates
  dsimp only
  split
  · simp [h]
  · split
    · simp [h]
    · split <;> simp [h]

theorem noReads_packetStates (env : Env) {c : Connection} (h : c.reads = []) (error : Bool)
    (turn : Turn) : NoReads (c.packetStates env error turn) := by
  unfold packetStates
  dsimp only
  split
  · simp [h]
  · split
    · simp [h]
    · split
      · simp [h, noReads_dispatchStates]
      · simp [h, noReads_authenticateStates]

theorem noReads_handlerStates (env : Env) {c : Connection} (h : c.reads = [])
    (target : ReadTarget) (error : Bool) (turn : Turn) :
    NoReads (c.handlerStates env target error turn) := by
  cases target with
  | header => exact noReads_headerStates h error turn
  | body size => exact noReads_packetStates env h error turn

/-! ## Between handlers -/

/-- At most one read is outstanding; an open connection has one, and its
timer. -/
structure Watched (c : Connection) : Prop where
  exclusive : c.reads.length ≤ 1
  guarded : c.escaped = none → c.closed = false → c.reads.length = 1 ∧ c.readTimer.Armed

theorem Watched.of_same {c c' : Connection} (h : c.Watched) (hreads : c'.reads = c.reads)
    (hescaped : c'.escaped = c.escaped) (hclosed : c'.closed = c.closed)
    (htimer : c'.readTimer = c.readTimer) : c'.Watched := by
  constructor
  · rw [hreads]
    exact h.exclusive
  · rw [hescaped, hclosed, hreads, htimer]
    exact h.guarded

theorem watched_of_closed {c : Connection} (hreads : c.reads.length ≤ 1)
    (hclosed : c.closed = true) : c.Watched := by
  refine ⟨hreads, fun _ hopen => ?_⟩
  rw [hclosed] at hopen
  cases hopen

theorem watched_close {c : Connection} (h : c.reads.length ≤ 1) : c.close.Watched := by
  apply watched_of_closed _ (close_closed c)
  rw [(close_sameInput c).reads]
  exact h

theorem Watched.send {c : Connection} (h : c.Watched) (msg : OutputMessage)
    (throws : Bool) : (c.send msg throws).Watched := by
  unfold Connection.send
  split
  · exact watched_close h.exclusive
  · exact h.of_same rfl rfl rfl rfl

theorem watched_of_armed {c : Connection} (hreads : c.reads.length = 1)
    (htimer : c.readTimer.Armed) : c.Watched :=
  ⟨Nat.le_of_eq hreads, fun _ _ => ⟨hreads, htimer⟩⟩

/-- However a handler ends, it leaves one guarded read or a connection that is
closed. -/
theorem Ends.watched {d c : Connection} (h : Ends d c) (hreads : d.reads = []) :
    c.Watched := by
  have hnone : d.reads.length ≤ 1 := by
    rw [hreads]
    exact Nat.zero_le 1
  have hone : ∀ read : PendingRead, (d.reads ++ [read]).length = 1 := by
    intro read
    rw [hreads]
    rfl
  cases h with
  | threw hescaped =>
      refine ⟨hnone, fun hrun => ?_⟩
      rw [hrun] at hescaped
      cases hescaped
  | gone hclosed => exact watched_of_closed hnone hclosed
  | close => exact watched_close hnone
  | header throws =>
      unfold armHeaderRead
      split
      · exact watched_close hnone
      · exact watched_of_armed (hone _) (Timer.armed_arm _)
  | body size htimer => exact watched_of_armed (hone _) htimer

/-- The only read is gone when its handler starts. -/
theorem Watched.reads_eraseIdx {c : Connection} (h : c.Watched) {i : Nat}
    {read : PendingRead} (hread : c.reads[i]? = some read) : c.reads.eraseIdx i = [] := by
  have hi : i < c.reads.length := (List.getElem?_eq_some_iff.mp hread).1
  have hlength := List.length_eraseIdx_of_lt hi
  have hone := h.exclusive
  exact List.eq_nil_of_length_eq_zero (by omega)

theorem Watched.readHandler {c : Connection} (h : c.Watched) (env : Env) {i : Nat}
    {read : PendingRead} (hread : c.reads[i]? = some read) (bytes : Bytes) (error : Bool)
    (turn : Turn) :
    ((({ c with reads := c.reads.eraseIdx i } : Connection).receive
      read.target bytes).readHandler env read.target error turn).Watched := by
  have hempty := h.reads_eraseIdx hread
  obtain ⟨d, hlast, hends⟩ := ends_readHandler env
    (({ c with reads := c.reads.eraseIdx i } : Connection).receive read.target bytes)
    read.target error turn
  apply hends.watched
  exact noReads_handlerStates env hempty read.target error turn d
    (List.mem_of_getLast? hlast)

/-- One input keeps the connection watched. -/
theorem Watched.step {env : Env} {input : Input} {c c' : Connection} (h : c.Watched)
    (hstep : c.step env input = some c') : c'.Watched := by
  cases effect_of_step hstep with
  | readDone turn hread => exact h.readHandler env hread _ false turn
  | readFailed turn hread => exact h.readHandler env hread _ true turn
  | readTimerExpires htimer =>
      exact ⟨h.exclusive, fun hescaped hclosed =>
        ⟨(h.guarded hescaped hclosed).1, armed_of_expire htimer⟩⟩
  | writeTimerExpires => exact h.of_same rfl rfl rfl rfl
  | readTimeout => exact watched_close h.exclusive
  | writeTimeout => exact watched_close h.exclusive
  | written => exact h.of_same rfl rfl rfl rfl
  | writeFailed => exact watched_close h.exclusive
  | sent msg throws => exact h.send msg throws
  | closed => exact watched_close h.exclusive
  | socketClosed => exact h.of_same rfl rfl rfl rfl
  | keptMessage => exact h.of_same rfl rfl rfl rfl

theorem watched_accepted (memory : Memory) (throws : Bool) :
    (accepted memory throws).Watched := by
  apply (Ends.header throws).watched
  rfl

theorem watched_run {env : Env} {inputs : List Input} {memory : Memory} {throws : Bool}
    {c : Connection} (h : run env inputs (accepted memory throws) = some c) : c.Watched :=
  PartialRun.run_preserves (fun _ _ _ hs hstep => hs.step hstep) inputs _ c
    (watched_accepted memory throws) h

/-- In every state between two handlers at most one read is outstanding, and
exactly one, with its timer, unless the connection is closed; an exception
that leaves a handler is the last thing to happen.  Inside the handler of a
completed read none is outstanding until it starts the next. -/
theorem read_watchdog (env : Env) (memory : Memory) (throws : Bool) (inputs : List Input)
    (c : Connection) (h : run env inputs (accepted memory throws) = some c) :
    c.reads.length ≤ 1 ∧
      (c.closed = false → c.escaped = none → c.reads.length = 1 ∧ c.readTimer.Armed) ∧
      (c.escaped ≠ none → ∀ input, c.step env input = none) ∧
      ∀ i read bytes error turn, c.reads[i]? = some read →
        ∀ d ∈ (({ c with reads := c.reads.eraseIdx i } : Connection).receive
            read.target bytes).handlerStates env read.target error turn,
          d.reads = [] := by
  have hwatched := watched_run h
  refine ⟨hwatched.exclusive, fun hclosed hescaped => hwatched.guarded hescaped hclosed, ?_, ?_⟩
  · intro hescaped input
    unfold Connection.step
    exact if_pos (Option.isSome_iff_ne_none.mpr hescaped)
  · intro i read bytes error turn hread
    apply noReads_handlerStates
    exact hwatched.reads_eraseIdx hread

/-- A login, and the header of the next packet. -/
theorem read_watchdog_login :
    ∃ c, run sampleEnv
        [.readDone 0 [150, 0] {}, .readDone 0 sampleLoginBody {}, .writeDone 0 false,
          .readTimerExpires]
        (accepted (fun _ => 0) false) = some c ∧ c.closed = false ∧
      c.reads.length ≤ 1 ∧
      (c.closed = false → c.escaped = none → c.reads.length = 1 ∧ c.readTimer.Armed) ∧
      (c.escaped ≠ none → ∀ input, c.step sampleEnv input = none) ∧
      ∀ i read bytes error turn, c.reads[i]? = some read →
        ∀ d ∈ (({ c with reads := c.reads.eraseIdx i } : Connection).receive
            read.target bytes).handlerStates sampleEnv read.target error turn,
          d.reads = [] := by
  have hmap : (run sampleEnv
      [.readDone 0 [150, 0] {}, .readDone 0 sampleLoginBody {}, .writeDone 0 false,
        .readTimerExpires]
      (accepted (fun _ => 0) false)).map (fun c => c.closed) = some false := by
    decide +kernel
  obtain ⟨c, hrun, hclosed⟩ := Option.map_eq_some_iff.mp hmap
  exact ⟨c, hrun, hclosed, read_watchdog _ _ _ _ c hrun⟩

end Connection

end LoginServer.Network
