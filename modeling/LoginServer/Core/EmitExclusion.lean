import LoginServer.Core.ServerThreads
import Mathlib.Data.List.Perm.Subperm

/-!
# Two threads in scripts

A packet handler enters an emit with the lock of its connection, the task of
a Redis message with `RedisSubscriber::m_mutex`.  No lock is taken by both on
the way in, so an entry is never held up: whatever arrives, the threads are
kept apart only if one of them has nothing to do there.

## Main results

* `inEmit_of_step` — who is inside after a step has just entered or was inside.
* `Quiet.step` — without a Redis message the dispatcher has nothing to call.
* `emits_exclusive_iff` — the arrivals for which no interleaving brings two
  threads together.
-/

namespace LoginServer.Core

open LoginServer.Verified

def IoPosition.Inside : IoPosition → Prop
  | .handler _ progress => progress.Inside
  | _ => False

def TaskPosition.Inside : TaskPosition → Prop
  | .locked progress => progress.Inside
  | _ => False

/-- What arrives from outside and is handed to the modules by an emit. -/
inductive Arrival where
  /-- a packet that `Protocol::parsePacket` accepts and that is no ping -/
  | packet (connection : Nat)
  /-- a Redis message with a channel and a text -/
  | message
  deriving DecidableEq, Repr

namespace ServerThreads

/-- The thread is between entry and return of an emit. -/
def InEmit (s : ServerThreads) : Thread → Prop
  | .io => s.io.Inside
  | .dispatcher => s.task.Inside

/-- No two threads are between entry and return of an emit. -/
def EmitsExclusive (s : ServerThreads) : Prop :=
  ∀ t u, s.InEmit t → s.InEmit u → t = u

/-- What a step takes up of what has arrived. -/
def arrival (s : ServerThreads) : Input → Option Arrival
  | .enter .io =>
      match s.io with
      | .handler connection _ => some (.packet connection)
      | _ => none
  | .subscriber (.reply .message) => some .message
  | _ => none

/-- All that a run takes up, in order. -/
def takenUp : List Input → ServerThreads → List Arrival
  | [], _ => []
  | input :: inputs, s =>
      (arrival s input).toList ++ ((step input s).elim [] (takenUp inputs))

/-! ## Who is inside -/

variable {s s' : ServerThreads} {t : Thread}

theorem inEmit_of_progress {progress : EmitProgress} (h : s.progress t = some progress) :
    s.InEmit t ↔ progress.Inside := by
  cases t with
  | io =>
      obtain ⟨connection, hio⟩ := progress_io_eq_some.mp h
      simp [InEmit, hio, IoPosition.Inside]
  | dispatcher =>
      have htask := progress_dispatcher_eq_some.mp h
      simp [InEmit, htask, TaskPosition.Inside]

/-- Only the thread whose progress it is moves. -/
theorem inEmit_setProgress {old new : EmitProgress} (h : s.progress t = some old) (u : Thread) :
    (s.setProgress t new).InEmit u ↔ (u = t ∧ new.Inside) ∨ (u ≠ t ∧ s.InEmit u) := by
  cases t with
  | io =>
      obtain ⟨connection, hio⟩ := progress_io_eq_some.mp h
      cases u with
      | io => simp [setProgress, hio, InEmit, IoPosition.Inside]
      | dispatcher => simp [setProgress, hio, InEmit]
  | dispatcher =>
      have htask := progress_dispatcher_eq_some.mp h
      cases u with
      | io => simp [setProgress, htask, InEmit]
      | dispatcher => simp [setProgress, htask, InEmit, TaskPosition.Inside]

theorem inEmit_setLock (s : ServerThreads) (connection : Nat) (lock : RecursiveMutex)
    (u : Thread) : (s.setLock connection lock).InEmit u ↔ s.InEmit u := by
  cases u <;> rfl

/-- The dispatcher's own statements are outside of the emit. -/
theorem act_inside {p p' : TaskPosition} {d : Dispatcher} {action : Action}
    (h : p.act d action = some p') : p'.Inside ↔ p.Inside := by
  unfold TaskPosition.act at h
  split at h
  · split at h
    · rename_i hp
      subst hp
      split at h <;> (cases h; rfl)
    · cases h
  · split at h
    · rename_i hp
      subst hp
      cases h
      rfl
    · cases h
  · cases h
    rfl

/-- Moving on inside or outside of an emit. -/
theorem inEmit_moved {old new : EmitProgress} (h : s.progress t = some old)
    (hsame : new.Inside ↔ old.Inside) (u : Thread) :
    (s.setProgress t new).InEmit u ↔ s.InEmit u := by
  rw [inEmit_setProgress h, hsame]
  by_cases hu : u = t
  · subst hu
    rw [inEmit_of_progress h]
    simp
  · simp [hu]

/-- The main thread moves from one place outside of an emit to another. -/
theorem inEmit_io {io : IoPosition} (hs : ¬ s.io.Inside) (hio : ¬ io.Inside) (u : Thread) :
    ({ s with io } : ServerThreads).InEmit u ↔ s.InEmit u := by
  cases u with
  | io => exact iff_of_false hio hs
  | dispatcher => exact Iff.rfl

theorem inEmit_task {task : TaskPosition} {mutex : Option Thread} (hs : ¬ s.task.Inside)
    (htask : ¬ task.Inside) (u : Thread) :
    ({ s with task, mutex } : ServerThreads).InEmit u ↔ s.InEmit u := by
  cases u with
  | io => exact Iff.rfl
  | dispatcher => exact iff_of_false htask hs

/-- A step that is no entry and no return leaves everybody where he is. -/
theorem inEmit_other {input : Input} (h : step input s = some s')
    (henter : ∀ t, input ≠ .enter t) (hleave : ∀ t, input ≠ .leave t) (u : Thread) :
    s'.InEmit u ↔ s.InEmit u := by
  cases input with
  | dispatcher action =>
      simp only [step, Option.bind_eq_bind, Option.bind_eq_some_iff] at h
      obtain ⟨subscriber, -, dispatcher, -, task, htask, h⟩ := h
      cases h
      cases u with
      | io => rfl
      | dispatcher => exact act_inside htask
  | subscriber action =>
      simp only [step, Option.bind_eq_bind, Option.bind_eq_some_iff] at h
      obtain ⟨subscriber, -, h⟩ := h
      cases h
      cases u <;> rfl
  | handle connection =>
      simp only [step, Option.bind_eq_bind, Option.bind_eq_some_iff] at h
      obtain ⟨_, hguard, lock, -, h⟩ := h
      cases h
      have hio := PartialRun.of_guard_eq_some hguard
      rw [inEmit_setLock]
      exact inEmit_io (by rw [hio]; exact id) id u
  | handled =>
      simp only [step] at h
      split at h
      · rename_i hio
        cases h
        rw [inEmit_setLock]
        exact inEmit_io (by rw [hio]; exact id) id u
      · rename_i hio
        cases h
        rw [inEmit_setLock]
        exact inEmit_io (by rw [hio]; exact id) id u
      · cases h
  | lockMutex =>
      simp only [step, Option.bind_eq_bind, Option.bind_eq_some_iff] at h
      obtain ⟨_, hguard, h⟩ := h
      cases h
      have htask := (PartialRun.of_guard_eq_some hguard).1
      exact inEmit_task (by rw [htask]; exact id) id u
  | unlockMutex =>
      simp only [step, Option.bind_eq_bind, Option.bind_eq_some_iff] at h
      obtain ⟨_, hguard, h⟩ := h
      cases h
      have htask := PartialRun.of_guard_eq_some hguard
      exact inEmit_task (by rw [htask]; exact id) id u
  | enter t => exact absurd rfl (henter t)
  | leave t => exact absurd rfl (hleave t)
  | send t client =>
      simp only [step, Option.bind_eq_bind, Option.bind_eq_some_iff] at h
      obtain ⟨_, hguard, lock, -, h⟩ := h
      cases h
      rw [inEmit_setLock]
      refine inEmit_moved (PartialRun.of_guard_eq_some hguard) ?_ u
      exact iff_of_true trivial trivial
  | sent t =>
      simp only [step] at h
      split at h
      · rename_i hprogress
        cases h
        rw [inEmit_setLock]
        refine inEmit_moved hprogress ?_ u
        exact iff_of_true trivial trivial
      · cases h
  | sigint =>
      simp only [step, Option.bind_eq_bind, Option.bind_eq_some_iff] at h
      obtain ⟨_, hguard, h⟩ := h
      cases h
      have hio := PartialRun.of_guard_eq_some hguard
      exact inEmit_io (by rw [hio]; exact id) id u
  | joinDispatcher =>
      simp only [step, Option.bind_eq_bind, Option.bind_eq_some_iff] at h
      obtain ⟨_, hguard, h⟩ := h
      cases h
      have hio := PartialRun.of_guard_eq_some hguard
      exact inEmit_io (by rw [hio]; exact id) id u
  | joinRedis =>
      simp only [step, Option.bind_eq_bind, Option.bind_eq_some_iff] at h
      obtain ⟨_, hguard, h⟩ := h
      cases h
      have hio := (PartialRun.of_guard_eq_some hguard).1
      exact inEmit_io (by rw [hio]; exact id) id u
  | closeAll =>
      simp only [step, Option.bind_eq_bind, Option.bind_eq_some_iff] at h
      obtain ⟨_, hguard, h⟩ := h
      cases h
      have hio := (PartialRun.of_guard_eq_some hguard).1
      exact inEmit_io (by rw [hio]; exact id) id u

/-- Who is inside after a step was inside before, or has just entered. -/
theorem inEmit_of_step {input : Input} (h : step input s = some s') {u : Thread}
    (hinside : s'.InEmit u) : s.InEmit u ∨ input = .enter u := by
  cases input with
  | enter t =>
      simp only [step, Option.bind_eq_bind, Option.bind_eq_some_iff] at h
      obtain ⟨_, hguard, h⟩ := h
      cases h
      rw [inEmit_setProgress (PartialRun.of_guard_eq_some hguard)] at hinside
      rcases hinside with ⟨rfl, -⟩ | ⟨-, hbefore⟩
      · exact Or.inr rfl
      · exact Or.inl hbefore
  | leave t =>
      simp only [step, Option.bind_eq_bind, Option.bind_eq_some_iff] at h
      obtain ⟨_, hguard, h⟩ := h
      cases h
      rw [inEmit_setProgress (PartialRun.of_guard_eq_some hguard)] at hinside
      rcases hinside with ⟨-, hafter⟩ | ⟨-, hbefore⟩
      · exact hafter.elim
      · exact Or.inl hbefore
  | _ =>
      refine Or.inl ((inEmit_other h ?_ ?_ u).mp hinside)
      · intro t heq
        cases heq
      · intro t heq
        cases heq

/-! ## Without a packet -/

/-- The main thread enters with a packet in its hands. -/
theorem arrival_of_enter (h : step (.enter .io) s = some s') :
    ∃ connection, arrival s (.enter .io) = some (.packet connection) := by
  simp only [step, Option.bind_eq_bind, Option.bind_eq_some_iff] at h
  obtain ⟨_, hguard, -⟩ := h
  obtain ⟨connection, hio⟩ := progress_io_eq_some.mp (PartialRun.of_guard_eq_some hguard)
  exact ⟨connection, by simp [arrival, hio]⟩

end ServerThreads

/-! ## Without a message -/

/-- The dispatcher has no task, and nobody is adding one. -/
structure Dispatcher.Idle (s : Dispatcher) : Prop where
  mutex : s.mutex = .free ∨ s.mutex = .dispatcher
  tasks : s.position.executing ++ s.tmpTaskList ++ s.taskList = []

namespace Dispatcher.Idle

variable {s t : Dispatcher}

theorem tmpTaskList (h : s.Idle) : s.tmpTaskList = [] :=
  (List.append_eq_nil_iff.mp (List.append_eq_nil_iff.mp h.tasks).1).2

theorem taskList (h : s.Idle) : s.taskList = [] :=
  (List.append_eq_nil_iff.mp h.tasks).2

/-- Idle threads stay so wherever the dispatcher goes without a task. -/
theorem moves (h : s.Idle) (hmutex : t.mutex = .free ∨ t.mutex = .dispatcher)
    (hposition : t.position.executing = []) (htmp : t.tmpTaskList = s.tmpTaskList)
    (htasks : t.taskList = s.taskList) : t.Idle :=
  ⟨hmutex, by rw [hposition, htmp, htasks, h.tmpTaskList, h.taskList]; rfl⟩

theorem notifyOne (h : s.Idle) : s.notifyOne.Idle := by
  obtain ⟨position, heq, -, rfl | ⟨hwait, rfl⟩⟩ := s.notifyOne_eq
  · rw [heq]
    exact h
  · rw [heq]
    exact h.moves h.mutex rfl rfl rfl

/-- Only who takes the mutex for a task can change that. -/
theorem step {action : Action} (h : s.Idle) (hstep : Effect s action t)
    (hadd : ∀ expiration, action ≠ .lockAdd expiration) (hshutdown : action ≠ .lockShutdown) :
    t.Idle := by
  have hmutex : ∀ {m : Mutex}, s.mutex = m → m = .free ∨ m = .dispatcher :=
    fun hm => hm ▸ h.mutex
  have hexecuting := (List.append_eq_nil_iff.mp (List.append_eq_nil_iff.mp h.tasks).1).1
  cases hstep with
  | lockAdd expiration _ => exact absurd rfl (hadd expiration)
  | readState _ hadding => cases hmutex hadding <;> contradiction
  | push _ hpushing => cases hmutex hpushing <;> contradiction
  | refuse hrefusing => cases hmutex hrefusing <;> contradiction
  | notifyOne task _ => exact notifyOne ⟨h.mutex, h.tasks⟩
  | lockShutdown _ => exact absurd rfl hshutdown
  | pushShutdown hholds => cases hmutex hholds <;> contradiction
  | notifyShutdown _ hholds => cases hmutex hholds <;> contradiction
  | spuriousWake _ => exact h.moves h.mutex rfl rfl rfl
  | check _ =>
      refine h.moves h.mutex ?_ rfl rfl
      dsimp only
      split <;> rfl
  | lock _ _ => exact h.moves (Or.inr rfl) rfl rfl rfl
  | test _ =>
      refine h.moves h.mutex ?_ rfl rfl
      dsimp only
      split <;> rfl
  | wait _ => exact h.moves (Or.inl rfl) rfl rfl rfl
  | relock _ _ => exact h.moves (Or.inr rfl) rfl rfl rfl
  | swap _ => exact ⟨Or.inl rfl, by simp [h.tmpTaskList, h.taskList]⟩
  | drop _ _ _ _ hbatch _ => simp [h.tmpTaskList] at hbatch
  | execute _ _ _ _ hbatch _ => simp [h.tmpTaskList] at hbatch
  | finish _ _ hposition _ => simp [hposition] at hexecuting
  | terminate _ hposition _ => simp [hposition] at hexecuting
  | deleteTask _ _ => exact h.moves h.mutex rfl rfl rfl
  | endBatch _ _ => exact h.moves h.mutex rfl rfl rfl

end Dispatcher.Idle

/-- The subscriber gets to `addTask` with a message only. -/
theorem Subscriber.step_position {action : SubscriberStep} {s t : Subscriber}
    (h : Subscriber.step action s = some t) (haction : action ≠ .reply .message) :
    t.position ≠ .message := by
  cases action with
  | check =>
      simp only [Subscriber.step, Option.ite_none_right_eq_some, Option.some.injEq] at h
      rw [← h.2]
      dsimp only
      split <;> exact nofun
  | select ready =>
      simp only [Subscriber.step, Option.ite_none_right_eq_some, Option.some.injEq] at h
      rw [← h.2]
      dsimp only
      split
      · exact nofun
      · split <;> exact nofun
  | read ok =>
      simp only [Subscriber.step, Option.ite_none_right_eq_some, Option.some.injEq] at h
      rw [← h.2]
      dsimp only
      split <;> exact nofun
  | reply reply =>
      simp only [Subscriber.step, Option.ite_none_right_eq_some] at h
      cases reply with
      | none =>
          rw [← Option.some.inj h.2]
          exact nofun
      | ignored =>
          rw [← Option.some.inj h.2, h.1]
          exact nofun
      | message => exact absurd rfl haction

/-- A call of `addTask` begins with a message. -/
theorem Subscriber.addTask_position {action : Action} {s t : Subscriber} {d : Dispatcher}
    (h : s.addTask d action = some t) (hs : s.position ≠ .message) :
    t.position ≠ .message ∧ (∀ expiration, action ≠ .lockAdd expiration) ∧
      action ≠ .lockShutdown := by
  cases action with
  | lockAdd expiration =>
      cases expiration with
      | zero =>
          rw [Subscriber.addTask, if_neg hs] at h
          cases h
      | succ expiration => cases h
  | push =>
      cases h
      refine ⟨?_, nofun, nofun⟩
      dsimp only
      split <;> exact nofun
  | refuse =>
      cases h
      exact ⟨nofun, nofun, nofun⟩
  | notifyOne task =>
      cases h
      exact ⟨nofun, nofun, nofun⟩
  | lockShutdown => cases h
  | pushShutdown => cases h
  | notifyShutdown => cases h
  | _ =>
      cases h
      exact ⟨hs, nofun, nofun⟩

namespace ServerThreads

variable {s s' : ServerThreads}

/-- Nothing has reached the dispatcher or is on its way to it. -/
structure Quiet (s : ServerThreads) : Prop where
  dispatcher : s.dispatcher.Idle
  subscriber : s.subscriber.position ≠ .message
  task : s.task = .outside

theorem Quiet.same (h : s.Quiet) (hdispatcher : s'.dispatcher = s.dispatcher)
    (hsubscriber : s'.subscriber = s.subscriber) (htask : s'.task = s.task) : s'.Quiet :=
  ⟨hdispatcher ▸ h.dispatcher, hsubscriber ▸ h.subscriber, htask.trans h.task⟩

/-- Nobody is inside on the dispatcher's side, so only the main thread gets on. -/
theorem Quiet.setProgress (h : s.Quiet) (t : Thread) (progress : EmitProgress) :
    (s.setProgress t progress).Quiet := by
  apply h.same (setProgress_dispatcher s t progress) (setProgress_subscriber s t progress)
  unfold ServerThreads.setProgress
  cases t with
  | io =>
      dsimp only
      split <;> rfl
  | dispatcher => simp only [h.task]

theorem Quiet.setLock (h : s.Quiet) (connection : Nat) (lock : RecursiveMutex) :
    (s.setLock connection lock).Quiet :=
  h.same rfl rfl rfl

/-- A step that takes up no message. -/
theorem Quiet.step {input : Input} (h : s.Quiet) (hstep : step input s = some s')
    (harrival : arrival s input ≠ some .message) : s'.Quiet := by
  cases input with
  | dispatcher action =>
      simp only [ServerThreads.step, Option.bind_eq_bind, Option.bind_eq_some_iff] at hstep
      obtain ⟨subscriber, hadd, dispatcher, hdispatcher, task, htask, hstep⟩ := hstep
      cases hstep
      obtain ⟨hposition, hlock, hshutdown⟩ := Subscriber.addTask_position hadd h.subscriber
      have hidle : dispatcher.Idle :=
        h.dispatcher.step (Dispatcher.effect_of_step hdispatcher) hlock hshutdown
      refine ⟨hidle, hposition, ?_⟩
      have hexecuting := (List.append_eq_nil_iff.mp (List.append_eq_nil_iff.mp hidle.tasks).1).1
      rw [h.task] at htask
      unfold TaskPosition.act at htask
      split at htask
      · rw [if_pos rfl] at htask
        split at htask
        · rename_i hexecute
          simp [hexecute] at hexecuting
        · exact (Option.some.inj htask).symm
      · cases htask
      · exact (Option.some.inj htask).symm
  | subscriber action =>
      simp only [ServerThreads.step, Option.bind_eq_bind, Option.bind_eq_some_iff] at hstep
      obtain ⟨subscriber, hsubscriber, hstep⟩ := hstep
      cases hstep
      refine ⟨h.dispatcher, Subscriber.step_position hsubscriber ?_, h.task⟩
      rintro rfl
      exact harrival rfl
  | handle connection =>
      simp only [ServerThreads.step, Option.bind_eq_bind, Option.bind_eq_some_iff] at hstep
      obtain ⟨_, -, lock, -, hstep⟩ := hstep
      cases hstep
      exact h.same rfl rfl rfl
  | handled =>
      simp only [ServerThreads.step] at hstep
      split at hstep
      · cases hstep
        exact h.same rfl rfl rfl
      · cases hstep
        exact h.same rfl rfl rfl
      · cases hstep
  | lockMutex =>
      simp only [ServerThreads.step, Option.bind_eq_bind, Option.bind_eq_some_iff] at hstep
      obtain ⟨_, hguard, -⟩ := hstep
      have hcalled := (PartialRun.of_guard_eq_some hguard).1
      rw [h.task] at hcalled
      cases hcalled
  | unlockMutex =>
      simp only [ServerThreads.step, Option.bind_eq_bind, Option.bind_eq_some_iff] at hstep
      obtain ⟨_, hguard, -⟩ := hstep
      have hlocked := PartialRun.of_guard_eq_some hguard
      rw [h.task] at hlocked
      cases hlocked
  | enter t =>
      simp only [ServerThreads.step, Option.bind_eq_bind, Option.bind_eq_some_iff] at hstep
      obtain ⟨_, -, hstep⟩ := hstep
      cases hstep
      exact h.setProgress t .callbacks
  | leave t =>
      simp only [ServerThreads.step, Option.bind_eq_bind, Option.bind_eq_some_iff] at hstep
      obtain ⟨_, -, hstep⟩ := hstep
      cases hstep
      exact h.setProgress t .after
  | send t client =>
      simp only [ServerThreads.step, Option.bind_eq_bind, Option.bind_eq_some_iff] at hstep
      obtain ⟨_, -, lock, -, hstep⟩ := hstep
      cases hstep
      exact (h.setProgress t (.sending client)).setLock client lock
  | sent t =>
      simp only [ServerThreads.step] at hstep
      split at hstep
      · cases hstep
        exact (h.setProgress t .callbacks).setLock _ _
      · cases hstep
  | sigint =>
      simp only [ServerThreads.step, Option.bind_eq_bind, Option.bind_eq_some_iff] at hstep
      obtain ⟨_, -, hstep⟩ := hstep
      cases hstep
      exact h.same rfl rfl rfl
  | joinDispatcher =>
      simp only [ServerThreads.step, Option.bind_eq_bind, Option.bind_eq_some_iff] at hstep
      obtain ⟨_, -, hstep⟩ := hstep
      cases hstep
      exact h.same rfl rfl rfl
  | joinRedis =>
      simp only [ServerThreads.step, Option.bind_eq_bind, Option.bind_eq_some_iff] at hstep
      obtain ⟨_, -, hstep⟩ := hstep
      cases hstep
      exact h.same rfl rfl rfl
  | closeAll =>
      simp only [ServerThreads.step, Option.bind_eq_bind, Option.bind_eq_some_iff] at hstep
      obtain ⟨_, -, hstep⟩ := hstep
      cases hstep
      exact h.same rfl rfl rfl

theorem quiet_start : Quiet {} where
  dispatcher := ⟨Or.inl rfl, rfl⟩
  subscriber := nofun
  task := rfl

/-! ## All interleavings -/

/-- There are two threads, so it is enough that one is outside. -/
theorem exclusive_of_outside {t : Thread} (h : ¬ s.InEmit t) : s.EmitsExclusive := by
  intro u v hu hv
  have hne : ∀ w, s.InEmit w → w ≠ t := fun w hw heq => h (heq ▸ hw)
  have hu := hne u hu
  have hv := hne v hv
  cases t <;> cases u <;> cases v <;> simp_all

/-- What holds of everything a run takes up. -/
theorem obeys_of_takenUp {P : Arrival → Prop} : ∀ {inputs : List Input} {s : ServerThreads},
    (∀ a ∈ takenUp inputs s, P a) →
      PartialRun.Obeys step (fun input s => ∀ a ∈ arrival s input, P a) inputs s := by
  intro inputs
  induction inputs with
  | nil => exact fun _ => trivial
  | cons input inputs ih =>
      intro s h
      rw [takenUp, List.forall_mem_append] at h
      refine ⟨fun a ha => h.1 a (Option.mem_toList.mpr ha), fun t ht => ih ?_⟩
      rw [ht] at h
      exact h.2

/-- Without a packet the main thread stays outside. -/
theorem exclusive_of_no_packet {inputs : List Input} (hrun : run inputs = some s)
    (h : ∀ a ∈ takenUp inputs {}, ∀ connection, a ≠ .packet connection) :
    s.EmitsExclusive := by
  rw [run] at hrun
  have hstays : ∀ (input : Input) (t t' : ServerThreads), ¬ t.InEmit .io →
      (∀ a ∈ arrival t input, ∀ connection, a ≠ .packet connection) →
      step input t = some t' → ¬ t'.InEmit .io := by
    intro input t t' hout harrival hstep hinside
    rcases inEmit_of_step hstep hinside with hbefore | rfl
    · exact hout hbefore
    · obtain ⟨connection, hpacket⟩ := arrival_of_enter hstep
      exact harrival _ hpacket connection rfl
  exact exclusive_of_outside
    (PartialRun.run_preserves_of hstays inputs {} s id (obeys_of_takenUp h) hrun)

/-- Without a message the dispatcher stays outside. -/
theorem exclusive_of_no_message {inputs : List Input} (hrun : run inputs = some s)
    (h : ∀ a ∈ takenUp inputs {}, a ≠ .message) : s.EmitsExclusive := by
  rw [run] at hrun
  have hquiet : s.Quiet := by
    refine PartialRun.run_preserves_of ?_ inputs {} s quiet_start (obeys_of_takenUp h) hrun
    intro input t t' hquiet harrival hstep
    exact hquiet.step hstep fun hmessage => harrival _ hmessage rfl
  have hout : ¬ s.InEmit .dispatcher := by
    show ¬ s.task.Inside
    rw [hquiet.task]
    exact id
  exact exclusive_of_outside hout

/-- One message arrives and its task is called. -/
def messageArrives : List Input :=
  [.subscriber .check, .subscriber (.select 1), .subscriber (.read true),
    .subscriber (.reply .message), .dispatcher (.lockAdd 0), .dispatcher .readState,
    .dispatcher .push, .dispatcher .check, .dispatcher .lock, .dispatcher .test,
    .dispatcher .swap, .dispatcher (.take 9), .lockMutex]

/-- A packet is handled while a message is. -/
def overlap (connection : Nat) : List Input :=
  messageArrives ++ [.enter .dispatcher, .handle connection, .enter .io]

/-- Each thread has its own lock. -/
theorem overlap_run (connection : Nat) :
    ∃ s, run (overlap connection) = some s ∧ s.InEmit .dispatcher ∧ s.InEmit .io ∧
      takenUp (overlap connection) {} = [.message, .packet connection] := by
  have hmap : (run (overlap connection)).map (fun s => (s.task, s.io)) =
      some (.locked .callbacks, .handler connection .callbacks) := rfl
  obtain ⟨s, hrun, heq⟩ := Option.map_eq_some_iff.mp hmap
  obtain ⟨htask, hio⟩ := Prod.mk.inj heq
  refine ⟨s, hrun, ?_, ?_, rfl⟩
  · show s.task.Inside
    rw [htask]
    exact trivial
  · show s.io.Inside
    rw [hio]
    exact trivial

/-- Whatever has arrived, no interleaving that takes up each packet and each
message at most once brings two threads into an emit, if and only if the
packets and messages that get to one are all of one kind. -/
theorem emits_exclusive_iff (arrivals : List Arrival) :
    (∀ inputs s, run inputs = some s → (takenUp inputs {}).Subperm arrivals →
        s.EmitsExclusive) ↔
      ¬ (.message ∈ arrivals ∧ ∃ connection, .packet connection ∈ arrivals) := by
  constructor
  · rintro h ⟨hmessage, connection, hpacket⟩
    obtain ⟨s, hrun, hdispatcher, hio, htaken⟩ := overlap_run connection
    have hsubperm : (takenUp (overlap connection) {}).Subperm arrivals := by
      rw [htaken]
      apply List.subperm_of_subset (by simp)
      simp [hmessage, hpacket]
    cases h _ s hrun hsubperm .dispatcher .io hdispatcher hio
  · intro hkinds inputs s hrun hsubperm
    by_cases hmessage : .message ∈ arrivals
    · apply exclusive_of_no_packet hrun
      rintro a ha connection rfl
      exact hkinds ⟨hmessage, connection, hsubperm.subset ha⟩
    · apply exclusive_of_no_message hrun
      rintro a ha rfl
      exact hmessage (hsubperm.subset ha)

/-- The message of one channel and a packet of connection 3. -/
theorem emits_overlap :
    ∃ s, run (messageArrives ++ [.enter .dispatcher, .handle 3, .enter .io]) = some s ∧
      s.InEmit .dispatcher ∧ s.InEmit .io ∧ ¬ s.EmitsExclusive := by
  obtain ⟨s, hrun, hdispatcher, hio, -⟩ := overlap_run 3
  refine ⟨s, hrun, hdispatcher, hio, fun hexclusive => ?_⟩
  cases hexclusive .dispatcher .io hdispatcher hio

end ServerThreads

end LoginServer.Core
