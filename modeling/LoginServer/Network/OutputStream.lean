import LoginServer.Network.Connection
import LoginServer.Verified.WriteQueue

/-!
# What a peer receives

`internalSend` encrypts a message where it lies and gives `async_write` a
reference to its bytes; there is no queue of messages, and nothing waits for
an earlier write.  The messages lie in the memory of the process, at an
address each, and whatever their owners do there before the socket has taken
the bytes is what the peer gets.

What is assumed of asio is in `step`: an `async_write` repeats
`async_write_some` on what is left, each takes a part of it, and those that
were started are served in order.  The handler that goes on with a write that
was cut short runs later than the socket took its part.

## Main results

* `queue_send`, `queue_accept`, `queue_resume` — the steps as steps of a
  `Queue`.
* `outstanding_of_run` — the writes on their way are those of the connection.
* `received_prefix_of_orderly` — when the peer receives a prefix of what was
  sent.
-/

namespace LoginServer.Network

open LoginServer.Verified.ByteMemory
open LoginServer.Verified
open LoginServer.Verified.WriteQueue (Queue)
open LoginServer.Utils

/-- An `async_write_some`: what is left of a frame, and where it lies. -/
structure WriteSome where
  address : Nat
  left : Nat
  /-- the frame, as it was when its `async_write` was started -/
  frame : Bytes
  deriving DecidableEq

def WriteSome.bytes (memory : Memory) (w : WriteSome) : Bytes := read memory w.address w.left

def WriteSome.advance (w : WriteSome) (n : Nat) : WriteSome :=
  { w with address := w.address + n, left := w.left - n }

/-- A connection, the memory of the process, and what is on its way to the
peer. -/
structure OutputStream where
  connection : Connection
  memory : Memory
  started : List WriteSome := []
  /-- the writes of which the socket took a part, and whose handler did not
  run yet -/
  cut : List WriteSome := []
  received : Bytes := []
  /-- the frames of the writes, in the order they were sent -/
  frames : List Bytes := []

/-- What can happen to the output of a connection. -/
inductive StreamEvent where
  /-- `Protocol::send` of the message at `base`; its buffer is what lies there -/
  | send (base : Nat) (msg : OutputMessage) (throws : Bool)
  /-- the socket takes `n` bytes -/
  | accept (n : Nat)
  /-- the handler of a write that was cut short -/
  | resume
  /-- a write fails -/
  | fail
  /-- the rest of the process, to its memory -/
  | store (memory : Memory)
  | setXTEAKey (key : Xtea.Key)
  | close
  /-- `ConnectionManager::closeAll` -/
  | socketClosed

namespace OutputStream

variable {s t : OutputStream}

/-- The connection from its first handler on. -/
def opened (buffer memory : Memory) : OutputStream :=
  { connection := .accept buffer, memory }

/-- The message at an address. -/
def located (s : OutputStream) (base : Nat) (msg : OutputMessage) : OutputMessage :=
  { msg with buffer := shift s.memory base }

/-- The message after `encryptMessage`. -/
def encrypted (s : OutputStream) (base : Nat) (msg : OutputMessage) : OutputMessage :=
  encryptMessage s.connection.protocol.key (s.located base msg)

/-- The memory after `encryptMessage`. -/
def memoryAfter (s : OutputStream) (base : Nat) (msg : OutputMessage) : Memory :=
  unshift s.memory (s.encrypted base msg).buffer base

/-- The `async_write` of a message. -/
def writeOf (s : OutputStream) (base : Nat) (msg : OutputMessage) : WriteSome :=
  { address := base + (s.encrypted base msg).start
    left := (s.encrypted base msg).len
    frame := (s.encrypted base msg).outputBytes }

/-- `send`, `internalSend`. -/
def send (s : OutputStream) (base : Nat) (msg : OutputMessage) (throws : Bool) : OutputStream :=
  let connection := s.connection.send (s.located base msg) throws
  let memory := s.memoryAfter base msg
  if throws then { s with connection, memory }
  else
    { s with
      connection
      memory
      started := s.started ++ [s.writeOf base msg]
      frames := s.frames ++ [(s.writeOf base msg).frame] }

/-- `onWriteOperation` of a write. -/
def written (s : OutputStream) (w : WriteSome) (error : Bool) : OutputStream :=
  let connection := { s.connection with writes := s.connection.writes.erase w.frame }
  { s with connection := connection.onWriteOperation error }

/-- The socket takes `n` bytes of the first write. -/
def accept (s : OutputStream) (w : WriteSome) (n : Nat) : OutputStream :=
  let s :=
    { s with
      received := s.received ++ read s.memory w.address n
      started := s.started.tail }
  if n < w.left then { s with cut := s.cut ++ [w.advance n] }
  else s.written w false

/-- One event; `none` when it cannot happen. -/
def step (event : StreamEvent) (s : OutputStream) : Option OutputStream :=
  match event with
  | .send base msg throws => some (s.send base msg throws)
  | .accept n => do
      let w ← s.started.head?
      guard (s.connection.socketOpen = true ∧ n ≤ w.left ∧ (n = 0 → w.left = 0))
      some (s.accept w n)
  | .resume => do
      let w ← s.cut.head?
      some { s with started := s.started ++ [w], cut := s.cut.tail }
  | .fail => do
      let w ← s.started.head?
      some (({ s with started := s.started.tail } : OutputStream).written w true)
  | .store memory => some { s with memory }
  | .setXTEAKey key =>
      some { s with connection.protocol.key := key }
  | .close => some { s with connection := s.connection.close }
  | .socketClosed =>
      some { s with connection := { s.connection with socketOpen := false, registered := false } }

/-- The stream after a list of events. -/
abbrev run (events : List StreamEvent) (s : OutputStream) : Option OutputStream :=
  PartialRun.run step events s

/-! ## The writes as a queue -/

/-- The bytes that are on their way, as they are in memory now. -/
def queue (s : OutputStream) : Queue UInt8 :=
  { output := s.received
    started := s.started.map (WriteSome.bytes s.memory)
    cut := s.cut.map (WriteSome.bytes s.memory) }

/-- `memory` has the bytes the socket did not take yet. -/
def Undisturbed (s : OutputStream) (memory : Memory) : Prop :=
  ∀ w ∈ s.cut ++ s.started, w.bytes memory = w.bytes s.memory

instance (s : OutputStream) (memory : Memory) : Decidable (s.Undisturbed memory) :=
  inferInstanceAs (Decidable (∀ w ∈ s.cut ++ s.started, w.bytes memory = w.bytes s.memory))

theorem Undisturbed.cut {memory : Memory} (h : s.Undisturbed memory) :
    s.cut.map (WriteSome.bytes memory) = s.cut.map (WriteSome.bytes s.memory) :=
  List.map_congr_left fun w hw => h w (List.mem_append_left _ hw)

theorem Undisturbed.started {memory : Memory} (h : s.Undisturbed memory) :
    s.started.map (WriteSome.bytes memory) = s.started.map (WriteSome.bytes s.memory) :=
  List.map_congr_left fun w hw => h w (List.mem_append_right _ hw)

theorem queue_store {memory : Memory} (h : s.Undisturbed memory) :
    ({ s with memory } : OutputStream).queue = s.queue := by
  unfold queue
  rw [h.cut, h.started]

/-- A write refers to the frame as it is encrypted. -/
theorem writeOf_bytes (s : OutputStream) (base : Nat) (msg : OutputMessage) :
    (s.writeOf base msg).bytes (s.memoryAfter base msg) = (s.writeOf base msg).frame :=
  read_unshift s.memory (s.encrypted base msg).buffer base _ _

theorem queue_send {base : Nat} {msg : OutputMessage}
    (h : s.Undisturbed (s.memoryAfter base msg)) :
    (s.send base msg false).queue = s.queue.submit (s.writeOf base msg).frame := by
  show Queue.mk s.received
    ((s.started ++ [s.writeOf base msg]).map (WriteSome.bytes (s.memoryAfter base msg)))
    (s.cut.map (WriteSome.bytes (s.memoryAfter base msg))) = _
  rw [List.map_append, List.map_singleton, h.cut, h.started, writeOf_bytes]
  rfl

theorem WriteSome.bytes_take (memory : Memory) {w : WriteSome} {n : Nat} (hn : n ≤ w.left) :
    (w.bytes memory).take n = read memory w.address n := by
  rw [WriteSome.bytes, show w.left = n + (w.left - n) by omega, read_append,
    List.take_left' (length_read memory w.address n)]

theorem WriteSome.bytes_drop (memory : Memory) {w : WriteSome} {n : Nat} (hn : n ≤ w.left) :
    (w.bytes memory).drop n = (w.advance n).bytes memory := by
  show _ = read memory (w.address + n) (w.left - n)
  rw [WriteSome.bytes, show w.left = n + (w.left - n) by omega, read_append,
    List.drop_left' (length_read memory w.address n), Nat.add_sub_cancel_left]

theorem queue_accept {w : WriteSome} {n : Nat} (hhead : s.started.head? = some w)
    (hn : n ≤ w.left) : (s.accept w n).queue = s.queue.serve n := by
  obtain ⟨rest, hstarted⟩ := List.head?_eq_some_iff.mp hhead
  have hlength : (w.bytes s.memory).length = w.left := length_read _ _ _
  have hserve : s.queue.serve n =
      { output := s.received ++ read s.memory w.address n
        started := rest.map (WriteSome.bytes s.memory)
        cut := if n < w.left
          then s.cut.map (WriteSome.bytes s.memory) ++ [(w.advance n).bytes s.memory]
          else s.cut.map (WriteSome.bytes s.memory) } := by
    unfold queue Queue.serve
    rw [hstarted, List.map_cons]
    dsimp only
    rw [hlength, WriteSome.bytes_take s.memory hn, WriteSome.bytes_drop s.memory hn]
  rw [hserve]
  unfold accept
  by_cases hpart : n < w.left
  · rw [if_pos hpart, if_pos hpart]
    simp [queue, hstarted]
  · rw [if_neg hpart, if_neg hpart]
    simp [queue, written, hstarted]

theorem queue_resume {w : WriteSome} (hhead : s.cut.head? = some w) :
    ({ s with started := s.started ++ [w], cut := s.cut.tail } : OutputStream).queue =
      s.queue.resume := by
  obtain ⟨rest, hcut⟩ := List.head?_eq_some_iff.mp hhead
  simp [queue, Queue.resume, hcut]

/-! ## The outstanding writes of the connection -/

/-- The writes that are on their way are those the connection waits for. -/
def Outstanding (s : OutputStream) : Prop :=
  ((s.cut ++ s.started).map WriteSome.frame).Perm s.connection.writes

theorem close_writes (c : Connection) : c.close.writes = c.writes := by
  unfold Connection.close Connection.closeSocket
  dsimp only
  split
  · rfl
  · split <;> rfl

theorem written_writes (s : OutputStream) (w : WriteSome) (error : Bool) :
    (s.written w error).connection.writes = s.connection.writes.erase w.frame := by
  cases error with
  | false => rfl
  | true => exact close_writes _

/-- The write in front is gone when its handler has run. -/
theorem Outstanding.erase {w : WriteSome} {rest : List WriteSome} (h : s.Outstanding)
    (hstarted : s.started = w :: rest) :
    ((s.cut ++ rest).map WriteSome.frame).Perm (s.connection.writes.erase w.frame) := by
  have hfront : (s.cut ++ s.started).Perm (w :: (s.cut ++ rest)) := by
    rw [hstarted]
    exact List.perm_middle
  have hwrites := ((hfront.map WriteSome.frame).symm.trans h).erase w.frame
  rwa [List.map_cons, List.erase_cons_head] at hwrites

theorem Outstanding.accept {w : WriteSome} {n : Nat} (h : s.Outstanding)
    (hhead : s.started.head? = some w) : (s.accept w n).Outstanding := by
  obtain ⟨rest, hstarted⟩ := List.head?_eq_some_iff.mp hhead
  unfold Outstanding OutputStream.accept
  rw [hstarted, List.tail_cons]
  by_cases hpart : n < w.left
  · rw [if_pos hpart]
    have hframes : ((s.cut ++ [w.advance n] ++ rest).map WriteSome.frame) =
        (s.cut ++ s.started).map WriteSome.frame := by
      rw [hstarted]
      simp [WriteSome.advance]
    show ((s.cut ++ [w.advance n] ++ rest).map WriteSome.frame).Perm s.connection.writes
    rw [hframes]
    exact h
  · rw [if_neg hpart, written_writes]
    exact h.erase hstarted

theorem Outstanding.step {event : StreamEvent} (h : s.Outstanding)
    (hstep : OutputStream.step event s = some t) : t.Outstanding := by
  cases event with
  | send base msg throws =>
      cases hstep
      cases throws with
      | true =>
          show ((s.cut ++ s.started).map WriteSome.frame).Perm s.connection.close.writes
          rw [close_writes]
          exact h
      | false =>
          show ((s.cut ++ (s.started ++ [s.writeOf base msg])).map WriteSome.frame).Perm
            (s.connection.writes ++ [(s.writeOf base msg).frame])
          rw [← List.append_assoc, List.map_append]
          exact h.append_right _
  | accept n =>
      obtain ⟨w, hhead, hstep⟩ := Option.bind_eq_some_iff.mp hstep
      obtain ⟨_, -, hstep⟩ := Option.bind_eq_some_iff.mp hstep
      cases hstep
      exact h.accept hhead
  | resume =>
      obtain ⟨w, hhead, hstep⟩ := Option.bind_eq_some_iff.mp hstep
      obtain ⟨rest, hcut⟩ := List.head?_eq_some_iff.mp hhead
      cases hstep
      have hperm : (s.cut.tail ++ (s.started ++ [w])).Perm (s.cut ++ s.started) := by
        rw [hcut, List.tail_cons, ← List.append_assoc]
        exact List.perm_append_singleton w (rest ++ s.started)
      exact (hperm.map WriteSome.frame).trans h
  | fail =>
      obtain ⟨w, hhead, hstep⟩ := Option.bind_eq_some_iff.mp hstep
      obtain ⟨rest, hstarted⟩ := List.head?_eq_some_iff.mp hhead
      cases hstep
      unfold Outstanding
      rw [written_writes]
      show ((s.cut ++ s.started.tail).map WriteSome.frame).Perm _
      rw [hstarted, List.tail_cons]
      exact h.erase hstarted
  | close =>
      cases hstep
      show ((s.cut ++ s.started).map WriteSome.frame).Perm s.connection.close.writes
      rw [close_writes]
      exact h
  | store memory =>
      cases hstep
      exact h
  | setXTEAKey key =>
      cases hstep
      exact h
  | socketClosed =>
      cases hstep
      exact h

/-- In every run. -/
theorem outstanding_of_run (buffer memory : Memory) (events : List StreamEvent)
    (hrun : OutputStream.run events (opened buffer memory) = some s) : s.Outstanding := by
  have hopened : (opened buffer memory).Outstanding := List.Perm.refl []
  exact PartialRun.run_preserves (fun _ _ _ h hstep => h.step hstep) events _ s hopened hrun

/-! ## Runs that keep the frames in order -/

/-- What must not happen while the socket is open: a send while a write that
was cut short did not go on, a change of bytes that are still to be taken, and
a part of a write taken while others wait. -/
def Orderly (event : StreamEvent) (s : OutputStream) : Prop :=
  match event with
  | .send base msg throws =>
      s.connection.socketOpen = true → throws = false →
        s.cut = [] ∧ s.Undisturbed (s.memoryAfter base msg)
  | .store memory => s.connection.socketOpen = true → s.Undisturbed memory
  | .accept n => s.started.length = 1 ∨ ∀ w ∈ s.started.head?, n = w.left
  | _ => True

instance decidableOrderly (event : StreamEvent) (s : OutputStream) :
    Decidable (Orderly event s) :=
  match event with
  | .send base msg throws =>
      inferInstanceAs (Decidable (s.connection.socketOpen = true → throws = false →
        s.cut = [] ∧ s.Undisturbed (s.memoryAfter base msg)))
  | .store memory =>
      inferInstanceAs (Decidable (s.connection.socketOpen = true → s.Undisturbed memory))
  | .accept n =>
      inferInstanceAs
        (Decidable (s.started.length = 1 ∨ ∀ w ∈ s.started.head?, n = w.left))
  | .resume | .fail | .setXTEAKey _ | .close | .socketClosed => .isTrue trivial

structure Intact (s : OutputStream) : Prop where
  closed : s.connection.closed = true → s.connection.socketOpen = false
  inOrder : s.connection.socketOpen = true → s.queue.InOrder s.frames.flatten
  received : s.received <+: s.frames.flatten

theorem close_socketOpen {c : Connection} (h : c.closed = true → c.socketOpen = false) :
    c.close.socketOpen = false := by
  unfold Connection.close Connection.closeSocket
  dsimp only
  cases hclosed : c.closed with
  | true => simpa using h hclosed
  | false => cases c.socketOpen <;> simp

theorem Intact.of_not_open (hopen : t.connection.socketOpen = false)
    (hreceived : t.received <+: t.frames.flatten) : t.Intact := by
  constructor
  · intro _
    exact hopen
  · intro hyes
    rw [hopen] at hyes
    cases hyes
  · exact hreceived

/-- Where the writes are in order, so is what was received. -/
theorem Intact.of_inOrder (hclosed : t.connection.closed = true → t.connection.socketOpen = false)
    (horder : t.queue.InOrder t.frames.flatten) : t.Intact := by
  constructor
  · exact hclosed
  · intro _
    exact horder
  · exact horder.output

theorem Intact.opened (buffer memory : Memory) : (opened buffer memory).Intact := by
  apply Intact.of_inOrder
  · intro hclosed
    cases hclosed
  · exact Queue.InOrder.empty

theorem Intact.send {base : Nat} {msg : OutputMessage} {throws : Bool} (h : s.Intact)
    (horderly : Orderly (.send base msg throws) s) : (s.send base msg throws).Intact := by
  cases throws with
  | true => exact .of_not_open (close_socketOpen h.closed) h.received
  | false =>
      cases hopen : s.connection.socketOpen with
      | false =>
          apply Intact.of_not_open
          · exact hopen
          · show s.received <+: (s.frames ++ [(s.writeOf base msg).frame]).flatten
            rw [List.flatten_append]
            exact h.received.trans (List.prefix_append _ _)
      | true =>
          obtain ⟨hcut, hmemory⟩ := horderly hopen rfl
          apply Intact.of_inOrder
          · exact h.closed
          · have hframes : (s.send base msg false).frames.flatten =
                s.frames.flatten ++ (s.writeOf base msg).frame := by
              show (s.frames ++ [(s.writeOf base msg).frame]).flatten = _
              rw [List.flatten_append, List.flatten_singleton]
            rw [queue_send hmemory, hframes]
            exact (h.inOrder hopen).submit (by simp [queue, hcut])

theorem accept_connection (s : OutputStream) (w : WriteSome) (n : Nat) :
    (s.accept w n).connection.closed = s.connection.closed ∧
      (s.accept w n).connection.socketOpen = s.connection.socketOpen ∧
      (s.accept w n).frames = s.frames := by
  unfold accept
  split
  · exact ⟨rfl, rfl, rfl⟩
  · exact ⟨rfl, rfl, rfl⟩

theorem Intact.accept {w : WriteSome} {n : Nat} (h : s.Intact)
    (horderly : Orderly (.accept n) s) (hhead : s.started.head? = some w)
    (hopen : s.connection.socketOpen = true) (hn : n ≤ w.left) : (s.accept w n).Intact := by
  obtain ⟨hclosed, hsocket, hframes⟩ := accept_connection s w n
  apply Intact.of_inOrder
  · rw [hclosed, hsocket]
    exact h.closed
  · rw [queue_accept hhead hn, hframes]
    apply (h.inOrder hopen).serve
    rcases horderly with hone | hwhole
    · left
      show (s.started.map _).length = 1
      rw [List.length_map, hone]
    · right
      intro data hdata
      have hbytes : w.bytes s.memory = data := by
        simpa [queue, hhead] using hdata
      rw [← hbytes, WriteSome.bytes, length_read, hwhole w hhead]

/-- One orderly step. -/
theorem Intact.step {event : StreamEvent} (h : s.Intact) (horderly : Orderly event s)
    (hstep : OutputStream.step event s = some t) : t.Intact := by
  cases event with
  | send base msg throws =>
      cases hstep
      exact h.send horderly
  | accept n =>
      obtain ⟨w, hhead, hstep⟩ := Option.bind_eq_some_iff.mp hstep
      obtain ⟨_, hguard, hstep⟩ := Option.bind_eq_some_iff.mp hstep
      obtain ⟨hopen, hn, -⟩ := PartialRun.of_guard_eq_some hguard
      cases hstep
      exact h.accept horderly hhead hopen hn
  | resume =>
      obtain ⟨w, hhead, hstep⟩ := Option.bind_eq_some_iff.mp hstep
      cases hstep
      constructor
      · exact h.closed
      · intro hopen
        rw [queue_resume hhead]
        exact (h.inOrder hopen).resume
      · exact h.received
  | fail =>
      obtain ⟨w, -, hstep⟩ := Option.bind_eq_some_iff.mp hstep
      cases hstep
      exact .of_not_open (close_socketOpen h.closed) h.received
  | store memory =>
      cases hstep
      constructor
      · exact h.closed
      · intro hopen
        rw [queue_store (horderly hopen)]
        exact h.inOrder hopen
      · exact h.received
  | setXTEAKey key =>
      cases hstep
      exact ⟨h.closed, h.inOrder, h.received⟩
  | close =>
      cases hstep
      exact .of_not_open (close_socketOpen h.closed) h.received
  | socketClosed =>
      cases hstep
      exact .of_not_open rfl h.received

/-- In a run of orderly steps the peer receives a prefix of the frames, in the
order in which they were sent. -/
theorem received_prefix_of_orderly (buffer memory : Memory) (events : List StreamEvent)
    (horderly : PartialRun.Obeys OutputStream.step Orderly events (opened buffer memory))
    (hrun : OutputStream.run events (opened buffer memory) = some s) :
    s.received <+: s.frames.flatten := by
  have hintact : s.Intact :=
    PartialRun.run_preserves_of (fun _ _ _ h horderly hstep => h.step horderly hstep)
      events _ s (.opened buffer memory) horderly hrun
  exact hintact.received

/-- A message of one byte, in memory that is filled with that byte. -/
def oneByte : OutputMessage := { buffer := fun _ => 7, length := 1, position := 9 }

/-- Two messages, one after the other; the first is taken in two parts. -/
def oneAtATime : List StreamEvent :=
  [.send 0 oneByte false, .accept 1, .resume, .accept 13, .send 24608 oneByte false, .accept 14]

theorem one_at_a_time_received :
    ∃ s, OutputStream.run oneAtATime (opened (fun _ => 0) (fun _ => 7)) = some s ∧
      s.received.length = 28 ∧ s.received <+: s.frames.flatten := by
  have hrun : (OutputStream.run oneAtATime (opened (fun _ => 0) (fun _ => 7))).map
      (fun s => s.received.length) = some 28 := by
    decide +kernel
  obtain ⟨s, hsome, hlength⟩ := Option.map_eq_some_iff.mp hrun
  use s, hsome, hlength
  exact received_prefix_of_orderly (fun _ => 0) (fun _ => 7) oneAtATime (by decide +kernel) hsome

/-- The second message is sent before the first one is written; the socket
takes one byte of the first, and then the second. -/
def overlapping : List StreamEvent :=
  [.send 0 oneByte false, .send 24608 oneByte false, .accept 1, .accept 14]

theorem frames_interleave :
    ∃ s, OutputStream.run overlapping (opened (fun _ => 0) (fun _ => 7)) = some s ∧
      s.connection.socketOpen = true ∧ s.received.take 2 = [12, 12] ∧
      s.frames.flatten.take 2 = [12, 0] ∧ ¬ s.received <+: s.frames.flatten := by
  have hrun : (OutputStream.run overlapping (opened (fun _ => 0) (fun _ => 7))).map
      (fun s => (s.connection.socketOpen, s.received.take 2, s.frames.flatten.take 2)) =
        some (true, [12, 12], [12, 0]) := by
    decide +kernel
  obtain ⟨s, hsome, hs⟩ := Option.map_eq_some_iff.mp hrun
  simp only [Prod.mk.injEq] at hs
  obtain ⟨hopen, hreceived, hframes⟩ := hs
  refine ⟨s, hsome, hopen, hreceived, hframes, ?_⟩
  intro hpre
  have hstart : s.received.take 2 <+: s.frames.flatten.take 2 :=
    List.prefix_take_iff.mpr ⟨(List.take_prefix 2 _).trans hpre, List.length_take_le 2 _⟩
  rw [hreceived, hframes] at hstart
  exact absurd hstart (by decide)

end OutputStream

end LoginServer.Network
