import LoginServer.Verified.PartialRun

/-!
# `Dispatcher`: the task thread

`Dispatcher::threadMain`, `addTask` and `shutdown` as one machine.  An action
is one step of one thread: taking the mutex, reading the thread state,
pushing, notifying, or one statement of `threadMain`.  Any number of threads
may be inside `addTask`; at most one of them holds `m_taskLock`, and those
that have left it may still have to notify.

The thread state is an atomic that is stored without the mutex, so reading it
and pushing are two actions.  The condition variable keeps no signals: a
notify wakes the dispatcher if it is waiting and is lost otherwise, and a
wait may end without one.

A task is known by its place in the order of acceptance.  The fields from
`accepted` on are ghosts.
-/

namespace LoginServer.Core

open LoginServer.Verified

/-- `ThreadHolder::ThreadState`. -/
inductive ThreadState where
  | running
  | closing
  | terminated
  deriving DecidableEq, Repr

/-- What a task does when it is called: a caller's function, or the closure of
`shutdown`. -/
inductive TaskKind where
  /-- `expiration` is 0 for `SYSTEM_TIME_ZERO` -/
  | callback (expiration : Nat)
  | shutdown
  deriving DecidableEq, Repr

structure Task where
  number : Nat
  kind : TaskKind
  deriving DecidableEq, Repr

/-- `hasExpired()`; the task of `shutdown` is created without an expiration. -/
def Task.hasExpired (task : Task) (now : Nat) : Bool :=
  match task.kind with
  | .callback expiration => expiration ≠ 0 && expiration < now
  | .shutdown => false

/-- Who holds `m_taskLock`, and where that thread stands. -/
inductive Mutex where
  | free
  | dispatcher
  /-- `addTask`, before it reads the thread state -/
  | adding (expiration : Nat)
  /-- `addTask`, which has read `Running` -/
  | pushing (expiration : Nat)
  /-- `addTask`, which has read another state -/
  | refusing
  /-- `shutdown`, before its push -/
  | shutdown
  /-- `shutdown`, which has pushed this task -/
  | signalling (task : Task)
  deriving DecidableEq, Repr

/-- Where `threadMain` stands. -/
inductive Position where
  /-- the loop condition -/
  | check
  | lock
  /-- `m_taskList.empty()`, with the mutex -/
  | test
  /-- the list was empty, `wait` is called with the mutex -/
  | sleep
  /-- blocked in `wait`, without the mutex -/
  | wait
  /-- in `wait`, about to take the mutex again -/
  | woken
  | swap
  /-- the loop over the batch, between two tasks -/
  | batch
  | execute (task : Task)
  | delete (task : Task)
  | returned
  deriving DecidableEq, Repr

structure Dispatcher where
  threadState : ThreadState := .running
  taskList : List Task := []
  /-- the tasks of the batch that the loop has not reached -/
  tmpTaskList : List Task := []
  dispatcherCycle : BitVec 64 := 0
  mutex : Mutex := .free
  position : Position := .check
  /-- the calls of `addTask` that still have to notify, by the task they pushed -/
  signals : List Task := []
  accepted : List Task := []
  taken : List Task := []
  executed : List Task := []
  /-- expired tasks, with the time that was read -/
  dropped : List (Task × Nat) := []
  deleted : List Task := []
  refused : Nat := 0
  deriving DecidableEq, Repr

inductive Action where
  /-- `addTask` takes the mutex -/
  | lockAdd (expiration : Nat)
  | readState
  /-- `do_signal = m_taskList.empty()`, `push_back` and unlock -/
  | push
  /-- `delete task` and unlock -/
  | refuse
  /-- `notify_one` of the call that pushed `task` -/
  | notifyOne (task : Task)
  /-- `shutdown` takes the mutex -/
  | lockShutdown
  | pushShutdown
  /-- `notify_one` of `shutdown`, and unlock -/
  | notifyShutdown
  | spuriousWake
  | check
  | lock
  | test
  /-- `wait` unlocks and blocks -/
  | wait
  | relock
  /-- `swap` and unlock -/
  | swap
  /-- the next task of the batch is tested at time `now` and called, or not -/
  | take (now : Nat)
  | finish
  | deleteTask
  | endBatch
  deriving DecidableEq, Repr

namespace Dispatcher

/-- `m_taskSignal.notify_one()`. -/
def notifyOne (s : Dispatcher) : Dispatcher :=
  match s.position with
  | .wait => { s with position := .woken }
  | _ => s

/-- `m_taskList.push_back(task)`. -/
def pushBack (s : Dispatcher) (task : Task) : Dispatcher :=
  { s with taskList := s.taskList ++ [task], accepted := s.accepted ++ [task] }

/-- The task that is accepted next. -/
def newTask (s : Dispatcher) (kind : TaskKind) : Task := ⟨s.accepted.length, kind⟩

/-- One action, if the threads stand where it can happen. -/
def step : Action → Dispatcher → Option Dispatcher
  | .lockAdd expiration, s =>
      if s.mutex = .free then some { s with mutex := .adding expiration } else none
  | .readState, s =>
      match s.mutex with
      | .adding expiration =>
          some { s with
            mutex := if s.threadState = .running then .pushing expiration else .refusing }
      | _ => none
  | .push, s =>
      match s.mutex with
      | .pushing expiration =>
          let task := s.newTask (.callback expiration)
          some { s.pushBack task with
            mutex := .free
            signals := if s.taskList.isEmpty then task :: s.signals else s.signals }
      | _ => none
  | .refuse, s =>
      if s.mutex = .refusing then some { s with mutex := .free, refused := s.refused + 1 }
      else none
  | .notifyOne task, s =>
      if task ∈ s.signals then some { s with signals := s.signals.erase task }.notifyOne
      else none
  | .lockShutdown, s =>
      if s.mutex = .free then some { s with mutex := .shutdown } else none
  | .pushShutdown, s =>
      if s.mutex = .shutdown then
        let task := s.newTask .shutdown
        some { s.pushBack task with mutex := .signalling task }
      else none
  | .notifyShutdown, s =>
      match s.mutex with
      | .signalling _ => some { s with mutex := .free }.notifyOne
      | _ => none
  | .spuriousWake, s =>
      if s.position = .wait then some { s with position := .woken } else none
  | .check, s =>
      if s.position = .check then
        some { s with position := if s.threadState = .terminated then .returned else .lock }
      else none
  | .lock, s =>
      if s.position = .lock ∧ s.mutex = .free then
        some { s with position := .test, mutex := .dispatcher }
      else none
  | .test, s =>
      if s.position = .test then
        some { s with position := if s.taskList.isEmpty then .sleep else .swap }
      else none
  | .wait, s =>
      if s.position = .sleep then some { s with position := .wait, mutex := .free } else none
  | .relock, s =>
      if s.position = .woken ∧ s.mutex = .free then
        some { s with position := .swap, mutex := .dispatcher }
      else none
  | .swap, s =>
      if s.position = .swap then
        some { s with
          taskList := s.tmpTaskList
          tmpTaskList := s.taskList
          mutex := .free
          position := .batch }
      else none
  | .take now, s =>
      match s.position, s.tmpTaskList with
      | .batch, task :: tmpTaskList =>
          let s := { s with tmpTaskList, taken := s.taken ++ [task] }
          if task.hasExpired now then
            some { s with position := .delete task, dropped := s.dropped ++ [(task, now)] }
          else
            some { s with
              position := .execute task
              dispatcherCycle := s.dispatcherCycle + 1
              executed := s.executed ++ [task] }
      | _, _ => none
  | .finish, s =>
      match s.position with
      | .execute task =>
          match task.kind with
          | .callback _ => some { s with position := .delete task }
          | .shutdown =>
              some { s with threadState := .terminated, position := .delete task }.notifyOne
      | _ => none
  | .deleteTask, s =>
      match s.position with
      | .delete task => some { s with position := .batch, deleted := s.deleted ++ [task] }
      | _ => none
  | .endBatch, s =>
      if s.position = .batch ∧ s.tmpTaskList = [] then some { s with position := .check }
      else none

/-- A run, from the state in which `start` leaves the object. -/
def run (actions : List Action) : Option Dispatcher := PartialRun.run step actions {}

/-- Everything an action can do. -/
inductive Effect (s : Dispatcher) : Action → Dispatcher → Prop where
  | lockAdd (expiration : Nat) : s.mutex = .free →
      Effect s (.lockAdd expiration) { s with mutex := .adding expiration }
  | readState (expiration : Nat) : s.mutex = .adding expiration →
      Effect s .readState
        { s with
          mutex := if s.threadState = .running then .pushing expiration else .refusing }
  | push (expiration : Nat) : s.mutex = .pushing expiration →
      Effect s .push
        { s.pushBack (s.newTask (.callback expiration)) with
          mutex := .free
          signals :=
            if s.taskList.isEmpty then s.newTask (.callback expiration) :: s.signals
            else s.signals }
  | refuse : s.mutex = .refusing →
      Effect s .refuse { s with mutex := .free, refused := s.refused + 1 }
  | notifyOne (task : Task) : task ∈ s.signals →
      Effect s (.notifyOne task) { s with signals := s.signals.erase task }.notifyOne
  | lockShutdown : s.mutex = .free → Effect s .lockShutdown { s with mutex := .shutdown }
  | pushShutdown : s.mutex = .shutdown →
      Effect s .pushShutdown
        { s.pushBack (s.newTask .shutdown) with mutex := .signalling (s.newTask .shutdown) }
  | notifyShutdown (task : Task) : s.mutex = .signalling task →
      Effect s .notifyShutdown { s with mutex := .free }.notifyOne
  | spuriousWake : s.position = .wait →
      Effect s .spuriousWake { s with position := .woken }
  | check : s.position = .check →
      Effect s .check
        { s with position := if s.threadState = .terminated then .returned else .lock }
  | lock : s.position = .lock → s.mutex = .free →
      Effect s .lock { s with position := .test, mutex := .dispatcher }
  | test : s.position = .test →
      Effect s .test { s with position := if s.taskList.isEmpty then .sleep else .swap }
  | wait : s.position = .sleep →
      Effect s .wait { s with position := .wait, mutex := .free }
  | relock : s.position = .woken → s.mutex = .free →
      Effect s .relock { s with position := .swap, mutex := .dispatcher }
  | swap : s.position = .swap →
      Effect s .swap
        { s with
          taskList := s.tmpTaskList, tmpTaskList := s.taskList, mutex := .free
          position := .batch }
  | drop (now : Nat) (task : Task) (rest : List Task) : s.position = .batch →
      s.tmpTaskList = task :: rest → task.hasExpired now = true →
      Effect s (.take now)
        { s with
          tmpTaskList := rest, taken := s.taken ++ [task], position := .delete task
          dropped := s.dropped ++ [(task, now)] }
  | execute (now : Nat) (task : Task) (rest : List Task) : s.position = .batch →
      s.tmpTaskList = task :: rest → task.hasExpired now = false →
      Effect s (.take now)
        { s with
          tmpTaskList := rest, taken := s.taken ++ [task], position := .execute task
          dispatcherCycle := s.dispatcherCycle + 1, executed := s.executed ++ [task] }
  | finish (task : Task) (expiration : Nat) : s.position = .execute task →
      task.kind = .callback expiration → Effect s .finish { s with position := .delete task }
  | terminate (task : Task) : s.position = .execute task → task.kind = .shutdown →
      Effect s .finish { s with threadState := .terminated, position := .delete task }
  | deleteTask (task : Task) : s.position = .delete task →
      Effect s .deleteTask { s with position := .batch, deleted := s.deleted ++ [task] }
  | endBatch : s.position = .batch → s.tmpTaskList = [] →
      Effect s .endBatch { s with position := .check }

/-- Inversion of `step`, once for all invariants. -/
theorem effect_of_step {a : Action} {s t : Dispatcher} (h : step a s = some t) :
    Effect s a t := by
  cases a with
  | lockAdd expiration =>
      simp only [step, Option.ite_none_right_eq_some, Option.some.injEq] at h
      obtain ⟨hmutex, rfl⟩ := h
      exact .lockAdd expiration hmutex
  | readState =>
      simp only [step] at h
      split at h
      · cases h
        exact .readState _ ‹_›
      · cases h
  | push =>
      simp only [step] at h
      split at h
      · cases h
        exact .push _ ‹_›
      · cases h
  | refuse =>
      simp only [step, Option.ite_none_right_eq_some, Option.some.injEq] at h
      obtain ⟨hmutex, rfl⟩ := h
      exact .refuse hmutex
  | notifyOne task =>
      simp only [step, Option.ite_none_right_eq_some, Option.some.injEq] at h
      obtain ⟨hmem, rfl⟩ := h
      exact .notifyOne task hmem
  | lockShutdown =>
      simp only [step, Option.ite_none_right_eq_some, Option.some.injEq] at h
      obtain ⟨hmutex, rfl⟩ := h
      exact .lockShutdown hmutex
  | pushShutdown =>
      simp only [step, Option.ite_none_right_eq_some, Option.some.injEq] at h
      obtain ⟨hmutex, rfl⟩ := h
      exact .pushShutdown hmutex
  | notifyShutdown =>
      simp only [step] at h
      split at h
      · cases h
        exact .notifyShutdown _ ‹_›
      · cases h
  | spuriousWake =>
      simp only [step, Option.ite_none_right_eq_some, Option.some.injEq] at h
      obtain ⟨hposition, rfl⟩ := h
      exact .spuriousWake hposition
  | check =>
      simp only [step, Option.ite_none_right_eq_some, Option.some.injEq] at h
      obtain ⟨hposition, rfl⟩ := h
      exact .check hposition
  | lock =>
      simp only [step, Option.ite_none_right_eq_some, Option.some.injEq] at h
      obtain ⟨⟨hposition, hmutex⟩, rfl⟩ := h
      exact .lock hposition hmutex
  | test =>
      simp only [step, Option.ite_none_right_eq_some, Option.some.injEq] at h
      obtain ⟨hposition, rfl⟩ := h
      exact .test hposition
  | wait =>
      simp only [step, Option.ite_none_right_eq_some, Option.some.injEq] at h
      obtain ⟨hposition, rfl⟩ := h
      exact .wait hposition
  | relock =>
      simp only [step, Option.ite_none_right_eq_some, Option.some.injEq] at h
      obtain ⟨⟨hposition, hmutex⟩, rfl⟩ := h
      exact .relock hposition hmutex
  | swap =>
      simp only [step, Option.ite_none_right_eq_some, Option.some.injEq] at h
      obtain ⟨hposition, rfl⟩ := h
      exact .swap hposition
  | take now =>
      simp only [step] at h
      split at h
      · split at h
        · cases h
          exact .drop now _ _ ‹_› ‹_› ‹_›
        · cases h
          exact .execute now _ _ ‹_› ‹_› (Bool.eq_false_iff.mpr ‹_›)
      · cases h
  | finish =>
      simp only [step] at h
      split at h
      · split at h
        · cases h
          exact .finish _ _ ‹_› ‹_›
        · cases h
          exact .terminate _ ‹_› ‹_›
      · cases h
  | deleteTask =>
      simp only [step] at h
      split at h
      · cases h
        exact .deleteTask _ ‹_›
      · cases h
  | endBatch =>
      simp only [step, Option.ite_none_right_eq_some, Option.some.injEq] at h
      obtain ⟨⟨hposition, hnil⟩, rfl⟩ := h
      exact .endBatch hposition hnil

end Dispatcher

end LoginServer.Core
