import LoginServer.Network.Watchdog

/-!
# The write watchdog

`internalSend` arms one timer for all writes of a connection, and
`onWriteOperation` cancels it, whichever write has completed.  A write that
is still outstanding then has no timer any more, and a peer that has stopped
reading keeps its connection for good.

## Main results

* `closes_of_armed` — an armed timer closes the connection.
* `WriteGuarded.step_iff` — which inputs take the guard off a write.
* `write_watchdog_iff` — the runs in which every write is guarded.
-/

namespace LoginServer.Network

open LoginServer.Verified
open LoginServer.Verified.ByteMemory

namespace Connection

/-- While the connection is not closed, an outstanding write has its timer. -/
def WriteGuarded (c : Connection) : Prop :=
  c.closed = false → c.writes ≠ [] → c.writeTimer.Armed

instance (c : Connection) : Decidable c.WriteGuarded :=
  inferInstanceAs (Decidable (_ → _ → _))

/-- An armed timer gets to `handleTimeout` if nothing else happens. -/
theorem closes_of_armed (env : Env) {c : Connection} (h : c.writeTimer.Armed)
    (hescaped : c.escaped = none) :
    ∃ inputs c', run env inputs c = some c' ∧ c'.closed = true := by
  have htimeout : ∀ d : Connection, d.escaped = none → 0 < d.writeTimer.expired →
      ∃ d', d.step env .writeTimeout = some d' ∧ d'.closed = true := by
    intro d hd hexpired
    let handled : Timer := { d.writeTimer with expired := d.writeTimer.expired - 1 }
    refine ⟨({ d with writeTimer := handled } : Connection).close, ?_, close_closed _⟩
    simp [Connection.step, hd, Timer.handle?, hexpired, handleTimeout, handled]
  by_cases hexpired : 0 < c.writeTimer.expired
  · obtain ⟨c', hstep, hclosed⟩ := htimeout c hescaped hexpired
    refine ⟨[.writeTimeout], c', ?_, hclosed⟩
    rw [run, PartialRun.run, hstep]
    rfl
  · have hwaits : 0 < c.writeTimer.waits := by
      unfold Timer.Armed at h
      omega
    let d : Connection :=
      { c with writeTimer := ⟨c.writeTimer.waits - 1, c.writeTimer.expired + 1⟩ }
    have hexpires : c.step env .writeTimerExpires = some d := by
      simp [Connection.step, hescaped, Timer.expire?, hwaits, d]
    obtain ⟨c', hstep, hclosed⟩ := htimeout d hescaped (Nat.succ_pos _)
    refine ⟨[.writeTimerExpires, .writeTimeout], c', ?_, hclosed⟩
    rw [run, PartialRun.run, hexpires]
    show (d.step env .writeTimeout).bind _ = _
    rw [hstep]
    rfl

/-! ## What keeps the guard -/

theorem writeGuarded_of_closed {c : Connection} (h : c.closed = true) : c.WriteGuarded := by
  intro hopen
  rw [h] at hopen
  cases hopen

theorem writeGuarded_close (c : Connection) : c.close.WriteGuarded :=
  writeGuarded_of_closed (close_closed c)

/-- Every send arms the timer, whatever was outstanding. -/
theorem writeGuarded_send (c : Connection) (msg : OutputMessage) (throws : Bool) :
    (c.send msg throws).WriteGuarded := by
  unfold send
  split
  · exact writeGuarded_close c
  · exact fun _ _ => Timer.armed_arm _

theorem WriteGuarded.of_sameOutput {c c' : Connection} (h : c.WriteGuarded)
    (hs : SameOutput c c') : c'.WriteGuarded := by
  unfold WriteGuarded
  rw [hs.closed, hs.writes, hs.writeTimer]
  exact h

theorem outputInv_writeGuarded : OutputInv WriteGuarded where
  same := WriteGuarded.of_sameOutput
  close := fun c _ => writeGuarded_close c
  send := fun c msg throws _ => writeGuarded_send c msg throws

/-! ## The runs -/

/-- The completion of a write leaves no other write behind, or the connection
is closed, or about to be by a wait that has expired. -/
def LeavesNoWrite (input : Input) (c : Connection) : Prop :=
  match input with
  | .writeDone _ false => c.closed = true ∨ c.writes.length ≤ 1 ∨ 0 < c.writeTimer.expired
  | _ => True

instance (input : Input) (c : Connection) : Decidable (LeavesNoWrite input c) :=
  match input with
  | .writeDone _ false =>
      inferInstanceAs (Decidable (_ ∨ _ ∨ _))
  | .writeDone _ true => .isTrue trivial
  | .readDone .. => .isTrue trivial
  | .readFailed .. => .isTrue trivial
  | .readTimerExpires => .isTrue trivial
  | .writeTimerExpires => .isTrue trivial
  | .readTimeout => .isTrue trivial
  | .writeTimeout => .isTrue trivial
  | .send .. => .isTrue trivial
  | .close => .isTrue trivial
  | .socketClosed => .isTrue trivial
  | .keptMessage _ => .isTrue trivial

theorem writeGuarded_written_iff {c : Connection} {i : Nat} (hi : i < c.writes.length) :
    ({ c with writes := c.writes.eraseIdx i, writeTimer := c.writeTimer.cancel } :
        Connection).WriteGuarded ↔ LeavesNoWrite (.writeDone i false) c := by
  have hlen : (c.writes.eraseIdx i).length = c.writes.length - 1 :=
    List.length_eraseIdx_of_lt hi
  have hempty : c.writes.eraseIdx i = [] ↔ c.writes.length ≤ 1 := by
    rw [← List.length_eq_zero_iff, hlen]
    omega
  show (c.closed = false → c.writes.eraseIdx i ≠ [] → c.writeTimer.cancel.Armed) ↔
    c.closed = true ∨ c.writes.length ≤ 1 ∨ 0 < c.writeTimer.expired
  rw [Timer.armed_cancel_iff, Ne, hempty]
  cases c.closed with
  | true => simp
  | false => simp [or_iff_not_imp_left]

/-- Only a completed write takes the guard off another one. -/
theorem WriteGuarded.step_iff {env : Env} {input : Input} {c c' : Connection}
    (h : c.WriteGuarded) (hstep : c.step env input = some c') :
    c'.WriteGuarded ↔ LeavesNoWrite input c := by
  cases effect_of_step hstep with
  | readDone turn =>
      refine iff_of_true ?_ trivial
      apply outputInv_writeGuarded.readHandler
      exact h.of_sameOutput ⟨rfl, rfl, rfl, rfl, rfl⟩
  | readFailed turn =>
      refine iff_of_true ?_ trivial
      apply outputInv_writeGuarded.readHandler
      exact h.of_sameOutput ⟨rfl, rfl, rfl, rfl, rfl⟩
  | readTimerExpires => exact iff_of_true h trivial
  | writeTimerExpires htimer => exact iff_of_true (fun _ _ => armed_of_expire htimer) trivial
  | readTimeout => exact iff_of_true (writeGuarded_close _) trivial
  | writeTimeout => exact iff_of_true (writeGuarded_close _) trivial
  | written i hi => exact writeGuarded_written_iff hi
  | writeFailed i => exact iff_of_true (writeGuarded_close _) trivial
  | sent msg throws => exact iff_of_true (writeGuarded_send c msg throws) trivial
  | closed => exact iff_of_true (writeGuarded_close c) trivial
  | socketClosed => exact iff_of_true h trivial
  | keptMessage => exact iff_of_true h trivial

theorem accepted_writes (memory : Memory) (throws : Bool) :
    (accepted memory throws).writes = [] := by
  cases throws <;> rfl

/-- Every write of an open connection is guarded in every state of a run if
and only if no write completes beside another one. -/
theorem write_watchdog_iff (env : Env) (memory : Memory) (throws : Bool) (inputs : List Input)
    (c : Connection) (h : run env inputs (accepted memory throws) = some c) :
    PartialRun.Throughout (step env) WriteGuarded inputs (accepted memory throws) ↔
      PartialRun.Obeys (step env) LeavesNoWrite inputs (accepted memory throws) := by
  have hstart : (accepted memory throws).WriteGuarded :=
    fun _ hwrites => absurd (accepted_writes memory throws) hwrites
  have hiff : ∀ (input : Input) (d d' : Connection), True → d.WriteGuarded →
      step env input d = some d' → True ∧ (d'.WriteGuarded ↔ LeavesNoWrite input d) :=
    fun _ _ _ _ hguarded hstep => ⟨trivial, hguarded.step_iff hstep⟩
  exact PartialRun.throughout_iff_obeys hiff inputs _ c trivial hstart h

/-- One byte in an output message. -/
def oneByte : OutputMessage := { buffer := fun _ => 7, length := 1, position := 9 }

/-- A write that completes alone. -/
theorem write_watchdog_single :
    ∃ c, run sampleEnv [.send oneByte false, .writeDone 0 false]
        (accepted (fun _ => 0) false) = some c ∧
      PartialRun.Throughout (step sampleEnv) WriteGuarded
        [.send oneByte false, .writeDone 0 false] (accepted (fun _ => 0) false) := by
  have hmap : (run sampleEnv [.send oneByte false, .writeDone 0 false]
      (accepted (fun _ => 0) false)).map (fun c => c.writes) = some [] := by
    decide +kernel
  obtain ⟨c, hrun, -⟩ := Option.map_eq_some_iff.mp hmap
  refine ⟨c, hrun, (write_watchdog_iff _ _ _ _ c hrun).mpr ?_⟩
  decide +kernel

/-- Two writes at once: the first to complete cancels the wait of the second. -/
theorem write_watchdog_overlap :
    ∃ c, run sampleEnv [.send oneByte false, .send oneByte false, .writeDone 0 false]
        (accepted (fun _ => 0) false) = some c ∧
      c.closed = false ∧ c.writes.length = 1 ∧ ¬ c.writeTimer.Armed := by
  have hmap : (run sampleEnv [.send oneByte false, .send oneByte false, .writeDone 0 false]
      (accepted (fun _ => 0) false)).map
        (fun c => (c.closed, c.writes.length, decide c.writeTimer.Armed)) =
      some (false, 1, false) := by
    decide +kernel
  obtain ⟨c, hrun, heq⟩ := Option.map_eq_some_iff.mp hmap
  simp only [Prod.mk.injEq, decide_eq_false_iff_not] at heq
  exact ⟨c, hrun, heq⟩

end Connection

end LoginServer.Network
