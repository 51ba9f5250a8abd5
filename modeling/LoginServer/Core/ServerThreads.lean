import LoginServer.Core.DispatcherShutdown
import Mathlib.Logic.Function.Basic

/-!
# The three threads of the server

The main thread runs `io_context.run()` and the handlers in it, the
dispatcher its tasks, and the Redis subscriber reads messages and hands each
one to the dispatcher.  Two of them run scripts: a packet handler inside
`Protocol::parsePacket`, with the lock of its connection, and the task of a
message, with `RedisSubscriber::m_mutex`.

An input is one step of one thread.  Nothing else in the repository adds
tasks, and nothing calls `Dispatcher::shutdown` or `ThreadHolder::stop`.

## Main results

* `progress_io_eq_some`, `progress_dispatcher_eq_some` — where the progress of
  an emit is kept.
* `moved_of_step` — which thread a step moves, and where to.
-/

namespace LoginServer.Core

open LoginServer.Verified

inductive Thread where
  | io
  | dispatcher
  deriving DecidableEq, Repr

/-! ## Locks -/

/-- `std::recursive_mutex`. -/
structure RecursiveMutex where
  owner : Option Thread := none
  depth : Nat := 0
  deriving DecidableEq, Repr

namespace RecursiveMutex

def lock? (m : RecursiveMutex) (t : Thread) : Option RecursiveMutex :=
  match m.owner with
  | none => some ⟨some t, 1⟩
  | some owner => if owner = t then some { m with depth := m.depth + 1 } else none

def unlock (m : RecursiveMutex) : RecursiveMutex :=
  if m.depth ≤ 1 then {} else { m with depth := m.depth - 1 }

end RecursiveMutex

/-! ## Where the threads stand -/

/-- Where a thread stands towards the `emitNoRet` it is there for. -/
inductive EmitProgress where
  | before
  /-- between entry and return -/
  | callbacks
  /-- the same, in `Connection::send` of a client -/
  | sending (client : Nat)
  | after
  deriving DecidableEq, Repr

/-- The thread runs on the `lua_State` and on the registry. -/
def EmitProgress.Inside : EmitProgress → Prop
  | .callbacks => True
  | .sending _ => True
  | _ => False

inductive IoPosition where
  /-- `io_context.run()`, between two handlers -/
  | run
  /-- a handler of a connection, with its lock -/
  | handler (connection : Nat) (progress : EmitProgress)
  /-- `sigintHandler`, after `Server::close` -/
  | sigint
  /-- in `g_dispatcher.join()` -/
  | joinDispatcher
  /-- in `g_redis->joinThreads()` -/
  | joinRedis
  | stopped
  deriving DecidableEq, Repr

/-- Where the dispatcher stands in the closure of an `onRedisMessage` task. -/
inductive TaskPosition where
  | outside
  | called
  /-- with `m_mutex` -/
  | locked (progress : EmitProgress)
  | unlocked
  deriving DecidableEq, Repr

/-- Where `RedisSubscriber::threadMain` stands. -/
inductive SubscriberPosition where
  | check
  | select
  | read
  /-- the loop over the replies -/
  | replies
  /-- at `addTask`, before it has the mutex -/
  | message
  | adding
  /-- in `addTask`, at its `notify_one` -/
  | signal
  | returned
  deriving DecidableEq, Repr

structure Subscriber where
  threadState : ThreadState := .running
  position : SubscriberPosition := .check
  deriving DecidableEq, Repr

inductive Reply where
  /-- the reader has no more -/
  | none
  /-- no message, or one without channel or text -/
  | ignored
  | message
  deriving DecidableEq, Repr

/-- A statement of `RedisSubscriber::threadMain`. -/
inductive SubscriberStep where
  | check
  /-- `Redis::Select` answers -/
  | select (ready : Int)
  /-- `redisBufferRead` -/
  | read (ok : Bool)
  | reply (reply : Reply)
  deriving DecidableEq, Repr

structure ServerThreads where
  dispatcher : Dispatcher := {}
  task : TaskPosition := .outside
  /-- `RedisSubscriber::m_mutex` -/
  mutex : Option Thread := none
  subscriber : Subscriber := {}
  io : IoPosition := .run
  /-- `m_connectionLock` of each connection -/
  connectionLock : Nat → RecursiveMutex := fun _ => {}

namespace Subscriber

/-- `threadMain`, up to the next `addTask`. -/
def step : SubscriberStep → Subscriber → Option Subscriber
  | .check, s =>
      if s.position = .check then
        some { s with position := if s.threadState = .terminated then .returned else .select }
      else none
  | .select ready, s =>
      if s.position = .select then
        some { s with
          position := if ready < 0 then .returned else if ready = 0 then .check else .read }
      else none
  | .read ok, s =>
      if s.position = .read then
        some { s with position := if ok then .replies else .returned }
      else none
  | .reply reply, s =>
      if s.position = .replies then
        match reply with
        | .none => some { s with position := .check }
        | .ignored => some s
        | .message => some { s with position := .message }
      else none

/-- The steps of `addTask` are the subscriber's; those of `shutdown` are
nobody's. -/
def addTask (s : Subscriber) (d : Dispatcher) : Action → Option Subscriber
  | .lockAdd 0 => if s.position = .message then some { s with position := .adding } else none
  | .lockAdd _ => none
  | .push => some { s with position := if d.taskList.isEmpty then .signal else .replies }
  | .refuse => some { s with position := .replies }
  | .notifyOne _ => some { s with position := .replies }
  | .lockShutdown => none
  | .pushShutdown => none
  | .notifyShutdown => none
  | _ => some s

end Subscriber

/-- What a step of the dispatcher, which leaves it as `d`, means for the
closure. -/
def TaskPosition.act (p : TaskPosition) (d : Dispatcher) : Action → Option TaskPosition
  | .take _ =>
      if p = .outside then
        match d.position with
        | .execute _ => some .called
        | _ => some .outside
      else none
  | .finish => if p = .unlocked then some .outside else none
  | _ => some p

namespace ServerThreads

def progress (s : ServerThreads) : Thread → Option EmitProgress
  | .io =>
      match s.io with
      | .handler _ progress => some progress
      | _ => none
  | .dispatcher =>
      match s.task with
      | .locked progress => some progress
      | _ => none

def setProgress (s : ServerThreads) (t : Thread) (progress : EmitProgress) : ServerThreads :=
  match t with
  | .io =>
      match s.io with
      | .handler connection _ => { s with io := .handler connection progress }
      | _ => s
  | .dispatcher =>
      match s.task with
      | .locked _ => { s with task := .locked progress }
      | _ => s

def setLock (s : ServerThreads) (connection : Nat) (lock : RecursiveMutex) : ServerThreads :=
  { s with connectionLock := Function.update s.connectionLock connection lock }

inductive Input where
  | dispatcher (action : Action)
  | subscriber (step : SubscriberStep)
  /-- a handler takes `m_connectionLock` -/
  | handle (connection : Nat)
  /-- it returns -/
  | handled
  /-- the task takes `m_mutex` -/
  | lockMutex
  | unlockMutex
  /-- `emitNoRet` is called -/
  | enter (t : Thread)
  /-- a callback sends to a client -/
  | send (t : Thread) (client : Nat)
  | sent (t : Thread)
  /-- `emitNoRet` returns -/
  | leave (t : Thread)
  /-- `sigintHandler`, up to the first `join` -/
  | sigint
  | joinDispatcher
  | joinRedis
  | closeAll
  deriving DecidableEq, Repr

/-- One step of one thread, if it is not blocked. -/
def step (input : Input) (s : ServerThreads) : Option ServerThreads :=
  match input with
  | .dispatcher action => do
      let subscriber ← s.subscriber.addTask s.dispatcher action
      let dispatcher ← Dispatcher.step action s.dispatcher
      let task ← s.task.act dispatcher action
      some { s with dispatcher, subscriber, task }
  | .subscriber action => do
      let subscriber ← Subscriber.step action s.subscriber
      some { s with subscriber }
  | .handle connection => do
      guard (s.io = .run)
      let lock ← (s.connectionLock connection).lock? .io
      some ({ s with io := .handler connection .before }.setLock connection lock)
  | .handled =>
      match s.io with
      | .handler connection .before | .handler connection .after =>
          some ({ s with io := .run }.setLock connection (s.connectionLock connection).unlock)
      | _ => none
  | .lockMutex => do
      guard (s.task = .called ∧ s.mutex = none)
      some { s with task := .locked .before, mutex := some .dispatcher }
  | .unlockMutex => do
      guard (s.task = .locked .after)
      some { s with task := .unlocked, mutex := none }
  | .enter t => do
      guard (s.progress t = some .before)
      some (s.setProgress t .callbacks)
  | .send t client => do
      guard (s.progress t = some .callbacks)
      let lock ← (s.connectionLock client).lock? t
      some ((s.setProgress t (.sending client)).setLock client lock)
  | .sent t =>
      match s.progress t with
      | some (.sending client) =>
          some ((s.setProgress t .callbacks).setLock client (s.connectionLock client).unlock)
      | _ => none
  | .leave t => do
      guard (s.progress t = some .callbacks)
      some (s.setProgress t .after)
  | .sigint => do
      guard (s.io = .run)
      some { s with io := .sigint }
  | .joinDispatcher => do
      guard (s.io = .sigint)
      some { s with io := .joinDispatcher }
  | .joinRedis => do
      guard (s.io = .joinDispatcher ∧ s.dispatcher.position = .returned)
      some { s with io := .joinRedis }
  | .closeAll => do
      guard (s.io = .joinRedis ∧ s.subscriber.position = .returned)
      some { s with io := .stopped }

/-- A run, from the moment the threads are started. -/
def run (inputs : List Input) : Option ServerThreads := PartialRun.run step inputs {}

theorem progress_io_eq_some {s : ServerThreads} {progress : EmitProgress} :
    s.progress .io = some progress ↔ ∃ connection, s.io = .handler connection progress := by
  simp only [ServerThreads.progress]
  split
  · rename_i hio
    simp [hio]
  · rename_i hio
    constructor
    · exact nofun
    · rintro ⟨connection, hhandler⟩
      exact absurd hhandler (hio connection progress)

theorem progress_dispatcher_eq_some {s : ServerThreads} {progress : EmitProgress} :
    s.progress .dispatcher = some progress ↔ s.task = .locked progress := by
  simp only [ServerThreads.progress]
  split
  · rename_i htask
    simp [htask]
  · rename_i htask
    constructor
    · exact nofun
    · exact fun hlocked => absurd hlocked (htask progress)

@[simp] theorem setProgress_dispatcher (s : ServerThreads) (t : Thread)
    (progress : EmitProgress) : (s.setProgress t progress).dispatcher = s.dispatcher := by
  unfold setProgress
  cases t <;> dsimp only <;> split <;> rfl

@[simp] theorem setProgress_subscriber (s : ServerThreads) (t : Thread)
    (progress : EmitProgress) : (s.setProgress t progress).subscriber = s.subscriber := by
  unfold setProgress
  cases t <;> dsimp only <;> split <;> rfl

@[simp] theorem setLock_dispatcher (s : ServerThreads) (connection : Nat)
    (lock : RecursiveMutex) : (s.setLock connection lock).dispatcher = s.dispatcher := rfl

@[simp] theorem setLock_subscriber (s : ServerThreads) (connection : Nat)
    (lock : RecursiveMutex) : (s.setLock connection lock).subscriber = s.subscriber := rfl

@[simp] theorem setLock_io (s : ServerThreads) (connection : Nat)
    (lock : RecursiveMutex) : (s.setLock connection lock).io = s.io := rfl

/-- Progress of an emit keeps the main thread in its handler. -/
theorem setProgress_io (s : ServerThreads) (t : Thread) (progress : EmitProgress) :
    (s.setProgress t progress).io = s.io ∨
      ∃ connection, (s.setProgress t progress).io = .handler connection progress := by
  unfold setProgress
  cases t with
  | io =>
      dsimp only
      split
      · exact Or.inr ⟨_, rfl⟩
      · exact Or.inl rfl
  | dispatcher =>
      dsimp only
      split <;> exact Or.inl rfl

/-- Where one step takes the main thread. -/
inductive IoMoves (s : ServerThreads) (input : Input) : IoPosition → Prop where
  | stays : input ≠ .joinDispatcher → IoMoves s input s.io
  | handler {connection : Nat} (progress : EmitProgress) : input ≠ .joinDispatcher →
      IoMoves s input (.handler connection progress)
  | run : input = .handled → IoMoves s input .run
  | sigint : input = .sigint → IoMoves s input .sigint
  | joinDispatcher : input = .joinDispatcher → IoMoves s input .joinDispatcher
  | joinRedis : s.dispatcher.position = .returned → input = .joinRedis →
      IoMoves s input .joinRedis
  | stopped : input = .closeAll → IoMoves s input .stopped

/-- What one step moves: the dispatcher, with the `addTask` that is under way,
the subscriber, or the main thread and the scripts. -/
inductive Moved (s : ServerThreads) : Input → ServerThreads → Prop where
  | dispatcher {action : Action} {s' : ServerThreads} :
      s.subscriber.addTask s.dispatcher action = some s'.subscriber →
      Dispatcher.step action s.dispatcher = some s'.dispatcher → s'.io = s.io →
      Moved s (.dispatcher action) s'
  | subscriber {action : SubscriberStep} {s' : ServerThreads} :
      Subscriber.step action s.subscriber = some s'.subscriber →
      s'.dispatcher = s.dispatcher → s'.io = s.io → Moved s (.subscriber action) s'
  | io {input : Input} {s' : ServerThreads} : s'.dispatcher = s.dispatcher →
      s'.subscriber = s.subscriber → IoMoves s input s'.io → Moved s input s'

/-- Progress of an emit keeps the main thread in its handler. -/
theorem ioMoves_setProgress (s : ServerThreads) (t : Thread) (progress : EmitProgress)
    {input : Input} (hinput : input ≠ .joinDispatcher) :
    IoMoves s input (s.setProgress t progress).io := by
  rcases setProgress_io s t progress with hio | ⟨connection, hio⟩
  · rw [hio]
    exact .stays hinput
  · rw [hio]
    exact .handler progress hinput

/-- Inversion of `step` for the threads themselves. -/
theorem moved_of_step {input : Input} {s s' : ServerThreads} (h : step input s = some s') :
    Moved s input s' := by
  cases input with
  | dispatcher action =>
      simp only [step, Option.bind_eq_bind, Option.bind_eq_some_iff] at h
      obtain ⟨subscriber, hsubscriber, dispatcher, hdispatcher, task, -, h⟩ := h
      cases h
      exact .dispatcher hsubscriber hdispatcher rfl
  | subscriber action =>
      simp only [step, Option.bind_eq_bind, Option.bind_eq_some_iff] at h
      obtain ⟨subscriber, hsubscriber, h⟩ := h
      cases h
      exact .subscriber hsubscriber rfl rfl
  | handle connection =>
      simp only [step, Option.bind_eq_bind, Option.bind_eq_some_iff] at h
      obtain ⟨_, -, lock, -, h⟩ := h
      cases h
      exact .io rfl rfl (.handler .before (fun h => by cases h))
  | handled =>
      simp only [step] at h
      split at h
      · cases h
        exact .io rfl rfl (.run rfl)
      · cases h
        exact .io rfl rfl (.run rfl)
      · cases h
  | lockMutex =>
      simp only [step, Option.bind_eq_bind, Option.bind_eq_some_iff] at h
      obtain ⟨_, -, h⟩ := h
      cases h
      exact .io rfl rfl (.stays (fun h => by cases h))
  | unlockMutex =>
      simp only [step, Option.bind_eq_bind, Option.bind_eq_some_iff] at h
      obtain ⟨_, -, h⟩ := h
      cases h
      exact .io rfl rfl (.stays (fun h => by cases h))
  | enter t =>
      simp only [step, Option.bind_eq_bind, Option.bind_eq_some_iff] at h
      obtain ⟨_, -, h⟩ := h
      cases h
      exact .io (by simp) (by simp) (ioMoves_setProgress s t _ (fun h => by cases h))
  | send t client =>
      simp only [step, Option.bind_eq_bind, Option.bind_eq_some_iff] at h
      obtain ⟨_, -, lock, -, h⟩ := h
      cases h
      exact .io (by simp) (by simp) (ioMoves_setProgress s t _ (fun h => by cases h))
  | sent t =>
      simp only [step] at h
      split at h
      · cases h
        exact .io (by simp) (by simp) (ioMoves_setProgress s t _ (fun h => by cases h))
      · cases h
  | leave t =>
      simp only [step, Option.bind_eq_bind, Option.bind_eq_some_iff] at h
      obtain ⟨_, -, h⟩ := h
      cases h
      exact .io (by simp) (by simp) (ioMoves_setProgress s t _ (fun h => by cases h))
  | sigint =>
      simp only [step, Option.bind_eq_bind, Option.bind_eq_some_iff] at h
      obtain ⟨_, -, h⟩ := h
      cases h
      exact .io rfl rfl (.sigint rfl)
  | joinDispatcher =>
      simp only [step, Option.bind_eq_bind, Option.bind_eq_some_iff] at h
      obtain ⟨_, -, h⟩ := h
      cases h
      exact .io rfl rfl (.joinDispatcher rfl)
  | joinRedis =>
      simp only [step, Option.bind_eq_bind, Option.bind_eq_some_iff] at h
      obtain ⟨_, hguard, h⟩ := h
      cases h
      exact .io rfl rfl (.joinRedis (PartialRun.of_guard_eq_some hguard).2 rfl)
  | closeAll =>
      simp only [step, Option.bind_eq_bind, Option.bind_eq_some_iff] at h
      obtain ⟨_, -, h⟩ := h
      cases h
      exact .io rfl rfl (.stopped rfl)

end ServerThreads

end LoginServer.Core
