import LoginServer.Network.ReceiveBounds

/-!
# The timers of a connection

Each of the two timers of a `Connection` is there to close it when nothing
happens for too long.  A wait is armed until it is cancelled or its handler
has run; one that has expired counts, because its handler is already queued
and no `cancel` reaches it any more.

The read handlers come to the other half of a connection, its writes and the
closing of it, through `close` and `send` only.  `OutputInv` says so once.

## Main results

* `OutputInv.readHandler` — what `close` and `send` keep, a read handler keeps.
* `accepted` — the state in which every run of a connection starts.
-/

namespace LoginServer.Network

open LoginServer.Verified
open LoginServer.Verified.ByteMemory

/-- A wait is pending or about to be handled. -/
def Timer.Armed (t : Timer) : Prop := 0 < t.waits + t.expired

instance (t : Timer) : Decidable t.Armed := inferInstanceAs (Decidable (_ < _))

theorem Timer.armed_arm (t : Timer) : t.arm.Armed := by
  unfold Timer.Armed Timer.arm
  dsimp only
  omega

theorem Timer.armed_cancel_iff (t : Timer) : t.cancel.Armed ↔ 0 < t.expired := by
  simp [Timer.Armed, Timer.cancel]

namespace Connection

/-- Expiring moves a wait from one count to the other. -/
theorem armed_of_expire {t t' : Timer} (h : Timer.expire? t = some t') : t'.Armed := by
  unfold Timer.expire? at h
  split at h
  · cases h
    unfold Timer.Armed
    dsimp only
    omega
  · cases h

/-! ## The half that reads do not touch -/

/-- The part of a connection that belongs to writing and closing. -/
structure SameOutput (c c' : Connection) : Prop where
  closed : c'.closed = c.closed
  socketOpen : c'.socketOpen = c.socketOpen
  registered : c'.registered = c.registered
  writeTimer : c'.writeTimer = c.writeTimer
  writes : c'.writes = c.writes

/-- A property of that part which `close` and `send` keep. -/
structure OutputInv (P : Connection → Prop) : Prop where
  same : ∀ {c c'}, P c → SameOutput c c' → P c'
  close : ∀ c, P c → P c.close
  send : ∀ c msg throws, P c → P (c.send msg throws)

namespace OutputInv

variable {P : Connection → Prop} (hP : OutputInv P)
include hP

theorem runActions (actions : List ScriptAction) {c : Connection} (h : P c) :
    P (actions.foldl runAction c) := by
  induction actions generalizing c with
  | nil => exact h
  | cons action actions ih =>
      cases action with
      | message call => exact ih (hP.same h ⟨rfl, rfl, rfl, rfl, rfl⟩)
      | send msg throws => exact ih (hP.send c msg throws h)

theorem dispatch {c : Connection} (turn : Turn) (h : P c) : P (c.dispatch turn) := by
  unfold Connection.dispatch
  dsimp only
  split
  · exact hP.same h ⟨rfl, rfl, rfl, rfl, rfl⟩
  · split
    · exact hP.same h ⟨rfl, rfl, rfl, rfl, rfl⟩
    · apply hP.runActions
      exact hP.same h ⟨rfl, rfl, rfl, rfl, rfl⟩

theorem authenticate (env : Env) {c : Connection} (turn : Turn) (h : P c) :
    P (c.authenticate env turn) := by
  unfold Connection.authenticate
  dsimp only
  have hstore : P (c.storeLogin (readLogin env c.msg).1 (readLogin env c.msg).2) :=
    hP.same h ⟨rfl, rfl, rfl, rfl, rfl⟩
  generalize c.storeLogin (readLogin env c.msg).1 (readLogin env c.msg).2 = d at hstore ⊢
  have hdisconnect : ∀ message, P (d.disconnectClient turn message) :=
    fun message => hP.close _ (hP.send d _ _ hstore)
  cases (readLogin env c.msg).1.branch with
  | threw => exact hP.same hstore ⟨rfl, rfl, rfl, rfl, rfl⟩
  | rsaRejected => exact hP.close d hstore
  | versionRejected => exact hdisconnect _
  | emptyEmail => exact hdisconnect _
  | emptyPassword => exact hdisconnect _
  | badAccount => exact hdisconnect _
  | accepted => exact hP.send d _ _ hstore

theorem armHeaderRead {c : Connection} (throws : Bool) (h : P c) :
    P (c.armHeaderRead throws) := by
  unfold Connection.armHeaderRead
  split
  · exact hP.close c h
  · exact hP.same h ⟨rfl, rfl, rfl, rfl, rfl⟩

theorem parseHeader {c : Connection} (error : Bool) (turn : Turn) (h : P c) :
    P (c.parseHeader error turn) := by
  have hsame : ∀ readTimer msg, P { c with readTimer, msg } :=
    fun _ _ => hP.same h ⟨rfl, rfl, rfl, rfl, rfl⟩
  unfold Connection.parseHeader
  dsimp only
  split
  · exact hP.close _ (hsame _ _)
  · split
    · exact hP.close _ (hsame _ _)
    · split
      · exact hP.close _ (hsame _ _)
      · exact hP.same h ⟨rfl, rfl, rfl, rfl, rfl⟩

theorem handlePacket (env : Env) {c : Connection} (turn : Turn) (h : P c) :
    P (c.handlePacket env turn) := by
  unfold Connection.handlePacket
  split
  · exact hP.dispatch turn h
  · apply hP.authenticate env
    exact hP.same h ⟨rfl, rfl, rfl, rfl, rfl⟩

theorem parsePacket (env : Env) {c : Connection} (error : Bool) (turn : Turn) (h : P c) :
    P (c.parsePacket env error turn) := by
  have hsame : ∀ readTimer msg, P { c with readTimer, msg } :=
    fun _ _ => hP.same h ⟨rfl, rfl, rfl, rfl, rfl⟩
  unfold Connection.parsePacket
  dsimp only
  split
  · exact hP.close _ (hsame _ _)
  · split
    · exact hsame _ _
    · have hhandled := hP.handlePacket env turn (hsame c.readTimer.cancel c.msg.stripChecksum)
      split
      · exact hhandled
      · exact hP.armHeaderRead _ hhandled

/-- What `close` and `send` keep, a read handler keeps. -/
theorem readHandler (env : Env) {c : Connection} (target : ReadTarget) (error : Bool)
    (turn : Turn) (h : P c) : P (c.readHandler env target error turn) := by
  cases target with
  | header => exact hP.parseHeader error turn h
  | body size => exact hP.parsePacket env error turn h

end OutputInv

/-- The state `accept` leaves a connection in; `throws` when the `try` block
does. -/
def accepted (memory : Memory) (throws : Bool) : Connection :=
  armHeaderRead { msg := { buffer := memory } } throws

end Connection

end LoginServer.Network
