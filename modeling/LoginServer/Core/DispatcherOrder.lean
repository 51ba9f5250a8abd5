import LoginServer.Core.Dispatcher
import Mathlib.Data.List.Nodup
import Mathlib.Data.List.Perm.Basic

/-!
# Tasks in the order of acceptance

Every accepted task is in one of three places: taken out of the batch, still
in it, or in `m_taskList`; read one behind the other they are the order of
acceptance.  And a dispatcher that sleeps on a list with tasks in it will be
woken: the task that ended the emptiness of the list owes it a notify.

`wait` has no predicate, so this rests on the mutex: the list that `test`
found empty is empty until the dispatcher is blocked.

## Main results

* `Ordered.step`, `Awake.step` — the two invariants, over one action.
* `dispatcher_in_order` — both in every reachable state.
-/

namespace LoginServer.Core

open LoginServer.Verified

/-- `threadMain` is in the loop over the batch. -/
@[simp] def Position.InBatch : Position → Prop
  | .batch => True
  | .execute _ => True
  | .delete _ => True
  | _ => False

/-- The task the loop works on. -/
@[simp] def Position.current : Position → List Task
  | .execute task => [task]
  | .delete task => [task]
  | _ => []

/-- `threadMain` holds the mutex. -/
@[simp] def Position.Critical : Position → Prop
  | .test => True
  | .sleep => True
  | .swap => True
  | _ => False

namespace Dispatcher

/-- Where the accepted tasks are, and what became of those that were taken. -/
structure Ordered (s : Dispatcher) : Prop where
  accepted : s.accepted = s.taken ++ s.tmpTaskList ++ s.taskList
  numbered : s.accepted.map Task.number = List.range s.accepted.length
  outcomes : (s.executed ++ s.dropped.map Prod.fst).Perm s.taken
  sequence : s.executed.Sublist s.taken
  expired : ∀ d ∈ s.dropped, d.1.hasExpired d.2 = true
  deleted : s.taken = s.deleted ++ s.position.current
  drained : ¬ s.position.InBatch → s.tmpTaskList = []

/-- The mutex is the dispatcher's where it looks at the list, and a
dispatcher that is about to wait has seen the list as it is. -/
structure Locked (s : Dispatcher) : Prop where
  mutex : s.mutex = .dispatcher ↔ s.position.Critical
  empty : s.position = .sleep → s.taskList = []

/-- The notify for the first task of the list is still to come. -/
def NotifyPending (s : Dispatcher) : Prop :=
  ∃ task rest, s.taskList = task :: rest ∧ (task ∈ s.signals ∨ s.mutex = .signalling task)

structure Awake (s : Dispatcher) : Prop extends Locked s where
  pending : s.position = .wait → s.taskList ≠ [] → s.NotifyPending

/-- A notify changes the position only, and only that of a waiting dispatcher. -/
theorem notifyOne_eq (s : Dispatcher) :
    ∃ position, s.notifyOne = { s with position } ∧ position ≠ .wait ∧
      (position = s.position ∨ (s.position = .wait ∧ position = .woken)) := by
  unfold notifyOne
  split
  · exact ⟨_, rfl, nofun, Or.inr ⟨‹_›, rfl⟩⟩
  · exact ⟨_, rfl, ‹_›, Or.inl rfl⟩

/-! ## Where the tasks are -/

/-- The two states have the same tasks in the same places. -/
structure SameTasks (s t : Dispatcher) : Prop where
  accepted : t.accepted = s.accepted
  taken : t.taken = s.taken
  batch : t.tmpTaskList = s.tmpTaskList
  taskList : t.taskList = s.taskList
  executed : t.executed = s.executed
  dropped : t.dropped = s.dropped
  deleted : t.deleted = s.deleted

/-- Most actions leave the tasks where they are. -/
theorem SameTasks.unmoved (s : Dispatcher) (threadState : ThreadState) (mutex : Mutex)
    (position : Position) (signals : List Task) (refused : Nat) :
    SameTasks s { s with threadState, mutex, position, signals, refused } :=
  ⟨rfl, rfl, rfl, rfl, rfl, rfl, rfl⟩

namespace Ordered

variable {s t : Dispatcher}

/-- The position matters by the task it holds. -/
theorem of_same (h : Ordered s) (hsame : SameTasks s t)
    (hcurrent : t.position.current = s.position.current)
    (hbatch : s.position.InBatch → t.position.InBatch ∨ s.tmpTaskList = []) : Ordered t := by
  obtain ⟨haccepted, htaken, hrest, hlist, hexecuted, hdropped, hdeleted⟩ := hsame
  constructor
  · rw [haccepted, htaken, hrest, hlist]
    exact h.accepted
  · rw [haccepted]
    exact h.numbered
  · rw [hexecuted, hdropped, htaken]
    exact h.outcomes
  · rw [hexecuted, htaken]
    exact h.sequence
  · rw [hdropped]
    exact h.expired
  · rw [htaken, hdeleted, hcurrent]
    exact h.deleted
  · intro hout
    rw [hrest]
    by_cases hin : s.position.InBatch
    · exact (hbatch hin).resolve_left hout
    · exact h.drained hin

/-- The same, where the position stays. -/
theorem of_same_position (h : Ordered s) (hsame : SameTasks s t)
    (hposition : t.position = s.position) : Ordered t :=
  h.of_same hsame (congrArg Position.current hposition)
    (fun hin => Or.inl (by rwa [hposition]))

/-- The same, between two positions outside the loop. -/
theorem of_same_outside (h : Ordered s) (hsame : SameTasks s t)
    (hs : ¬ s.position.InBatch) (ht : ¬ t.position.InBatch) : Ordered t := by
  have houtside : ∀ position : Position, ¬ position.InBatch → position.current = [] := by
    intro position hout
    cases position <;> first | rfl | exact absurd trivial hout
  apply h.of_same hsame
  · rw [houtside _ hs, houtside _ ht]
  · exact fun hin => absurd hin hs

theorem notifyOne (h : Ordered s) : Ordered s.notifyOne := by
  obtain ⟨position, heq, -, hposition | ⟨hwait, hwoken⟩⟩ := s.notifyOne_eq
  · rw [heq]
    exact h.of_same_position (.unmoved s ..) hposition
  · rw [heq]
    exact h.of_same_outside (.unmoved s ..) (by simp [hwait]) (by simp [hwoken])

/-- A new task is the last one of the list, and the last one accepted. -/
theorem pushBack (h : Ordered s) (kind : TaskKind) : Ordered (s.pushBack (s.newTask kind)) := by
  constructor
  · show s.accepted ++ [_] = s.taken ++ s.tmpTaskList ++ (s.taskList ++ [_])
    rw [← List.append_assoc, ← h.accepted]
  · show (s.accepted ++ [s.newTask kind]).map Task.number = List.range (s.accepted ++ [_]).length
    rw [List.map_append, h.numbered, List.length_append, List.length_singleton,
      List.range_succ]
    rfl
  · exact h.outcomes
  · exact h.sequence
  · exact h.expired
  · exact h.deleted
  · exact h.drained

/-- The batch was empty, and becomes the list. -/
theorem swap (h : Ordered s) (hposition : s.position = .swap) (mutex : Mutex) :
    Ordered { s with
      taskList := s.tmpTaskList, tmpTaskList := s.taskList, mutex, position := .batch } := by
  have hempty : s.tmpTaskList = [] := h.drained (by simp [hposition])
  have hcurrent := h.deleted
  rw [hposition] at hcurrent
  constructor
  · show s.accepted = s.taken ++ s.taskList ++ s.tmpTaskList
    rw [h.accepted, hempty, List.append_nil, List.append_nil]
  · exact h.numbered
  · exact h.outcomes
  · exact h.sequence
  · exact h.expired
  · exact hcurrent
  · exact fun hout => absurd trivial hout

section
variable {task : Task} {rest : List Task} (h : Ordered s)
include h

theorem accepted_take (hbatch : s.tmpTaskList = task :: rest) :
    s.accepted = s.taken ++ [task] ++ rest ++ s.taskList := by
  rw [h.accepted, hbatch]
  simp

theorem deleted_take (hposition : s.position = .batch) :
    s.taken ++ [task] = s.deleted ++ [task] := by
  have hdeleted := h.deleted
  rw [hposition] at hdeleted
  rw [hdeleted]
  simp [Position.current]

variable (hposition : s.position = .batch) (hbatch : s.tmpTaskList = task :: rest)
include hposition hbatch

theorem drop {now : Nat} (hexpired : task.hasExpired now = true) :
    Ordered { s with
      tmpTaskList := rest, taken := s.taken ++ [task], position := .delete task
      dropped := s.dropped ++ [(task, now)] } := by
  constructor
  · exact h.accepted_take hbatch
  · exact h.numbered
  · show (s.executed ++ (s.dropped ++ [(task, now)]).map Prod.fst).Perm (s.taken ++ [task])
    rw [List.map_append, ← List.append_assoc]
    exact h.outcomes.append_right [task]
  · exact h.sequence.trans (List.sublist_append_left _ _)
  · intro d hd
    rcases List.mem_append.mp hd with hd | hd
    · exact h.expired d hd
    · rw [List.mem_singleton.mp hd]
      exact hexpired
  · exact h.deleted_take hposition
  · exact fun hout => absurd trivial hout

theorem execute (dispatcherCycle : BitVec 64) :
    Ordered { s with
      tmpTaskList := rest, taken := s.taken ++ [task], position := .execute task
      dispatcherCycle, executed := s.executed ++ [task] } := by
  constructor
  · exact h.accepted_take hbatch
  · exact h.numbered
  · show (s.executed ++ [task] ++ s.dropped.map Prod.fst).Perm (s.taken ++ [task])
    rw [List.append_assoc]
    refine (List.Perm.append_left s.executed List.perm_append_comm).trans ?_
    rw [← List.append_assoc]
    exact h.outcomes.append_right [task]
  · exact h.sequence.append_right [task]
  · exact h.expired
  · exact h.deleted_take hposition
  · exact fun hout => absurd trivial hout

end

/-- The loop is done with its task. -/
theorem deleteTask (h : Ordered s) {task : Task} (hposition : s.position = .delete task) :
    Ordered { s with position := .batch, deleted := s.deleted ++ [task] } := by
  have hdeleted := h.deleted
  rw [hposition] at hdeleted
  constructor
  · exact h.accepted
  · exact h.numbered
  · exact h.outcomes
  · exact h.sequence
  · exact h.expired
  · show s.taken = s.deleted ++ [task] ++ []
    rw [List.append_nil]
    exact hdeleted
  · exact fun hout => absurd trivial hout

theorem step {a : Action} (h : Ordered s) (hstep : Effect s a t) : Ordered t := by
  cases hstep with
  | lockAdd _ _ => exact h.of_same_position (.unmoved s ..) rfl
  | readState _ _ => exact h.of_same_position (.unmoved s ..) rfl
  | push expiration _ =>
      exact (h.pushBack (.callback expiration)).of_same_position (.unmoved _ ..) rfl
  | refuse _ => exact h.of_same_position (.unmoved s ..) rfl
  | notifyOne task _ =>
      exact (h.of_same_position (t := { s with signals := s.signals.erase task })
        (.unmoved s ..) rfl).notifyOne
  | lockShutdown _ => exact h.of_same_position (.unmoved s ..) rfl
  | pushShutdown _ => exact (h.pushBack .shutdown).of_same_position (.unmoved _ ..) rfl
  | notifyShutdown _ _ =>
      exact (h.of_same_position (t := { s with mutex := .free }) (.unmoved s ..) rfl).notifyOne
  | spuriousWake hposition =>
      exact h.of_same_outside (.unmoved s ..) (by simp [hposition]) (by simp)
  | check hposition =>
      apply h.of_same_outside (.unmoved s ..) (by simp [hposition])
      dsimp only
      split <;> simp
  | lock hposition _ => exact h.of_same_outside (.unmoved s ..) (by simp [hposition]) (by simp)
  | test hposition =>
      apply h.of_same_outside (.unmoved s ..) (by simp [hposition])
      dsimp only
      split <;> simp
  | wait hposition => exact h.of_same_outside (.unmoved s ..) (by simp [hposition]) (by simp)
  | relock hposition _ => exact h.of_same_outside (.unmoved s ..) (by simp [hposition]) (by simp)
  | swap hposition => exact h.swap hposition _
  | drop now task rest hposition hbatch hexpired => exact h.drop hposition hbatch hexpired
  | execute now task rest hposition hbatch _ => exact h.execute hposition hbatch _
  | finish task _ hposition _ =>
      exact h.of_same (.unmoved s ..) (by rw [hposition]; rfl) (fun _ => Or.inl trivial)
  | terminate task hposition _ =>
      exact h.of_same (.unmoved s ..) (by rw [hposition]; rfl) (fun _ => Or.inl trivial)
  | deleteTask task hposition => exact h.deleteTask hposition
  | endBatch hposition hempty =>
      exact h.of_same (.unmoved s ..) (by rw [hposition]; rfl) (fun _ => Or.inr hempty)

end Ordered

/-! ## Who wakes the dispatcher -/

namespace Locked

variable {s t : Dispatcher}

/-- Neither is the mutex the dispatcher's, nor does `threadMain` need it. -/
theorem of_outside (hmutex : t.mutex ≠ .dispatcher) (hposition : ¬ t.position.Critical) :
    Locked t := by
  constructor
  · exact iff_of_false hmutex hposition
  · intro hsleep
    rw [hsleep] at hposition
    exact absurd trivial hposition

/-- An action of another thread that holds the mutex, or takes it. -/
theorem of_others (h : Locked s) (hs : s.mutex ≠ .dispatcher) (ht : t.mutex ≠ .dispatcher)
    (hposition : t.position = s.position) : Locked t := by
  apply of_outside ht
  rw [hposition]
  exact fun hcritical => hs (h.mutex.mpr hcritical)

/-- A step of `threadMain` outside its critical section. -/
theorem of_moved (h : Locked s) (hs : ¬ s.position.Critical) (ht : ¬ t.position.Critical)
    (hmutex : t.mutex = s.mutex) : Locked t := by
  apply of_outside _ ht
  rw [hmutex]
  exact fun hheld => hs (h.mutex.mp hheld)

theorem notifyOne (h : Locked s) : Locked s.notifyOne := by
  obtain ⟨position, heq, -, rfl | ⟨hwait, rfl⟩⟩ := s.notifyOne_eq
  · rw [heq]
    exact h
  · rw [heq]
    exact h.of_moved (by simp [hwait]) (by simp) rfl

theorem step {a : Action} (h : Locked s) (hstep : Effect s a t) : Locked t := by
  cases hstep with
  | lockAdd _ hmutex => exact h.of_others (by simp [hmutex]) nofun rfl
  | readState _ hmutex =>
      refine h.of_others (by simp [hmutex]) ?_ rfl
      dsimp only
      split <;> exact nofun
  | push _ hmutex => exact h.of_others (by simp [hmutex]) nofun rfl
  | refuse hmutex => exact h.of_others (by simp [hmutex]) nofun rfl
  | notifyOne task _ =>
      exact (show Locked { s with signals := s.signals.erase task } from
        ⟨h.mutex, h.empty⟩).notifyOne
  | lockShutdown hmutex => exact h.of_others (by simp [hmutex]) nofun rfl
  | pushShutdown hmutex => exact h.of_others (by simp [hmutex]) nofun rfl
  | notifyShutdown _ hmutex =>
      exact (show Locked { s with mutex := .free } from
        h.of_others (by simp [hmutex]) nofun rfl).notifyOne
  | spuriousWake hposition =>
      exact h.of_moved (by simp [hposition]) (by simp) rfl
  | check hposition =>
      refine h.of_moved (by simp [hposition]) ?_ rfl
      dsimp only
      split <;> simp
  | lock _ _ => exact ⟨by simp, nofun⟩
  | test hposition =>
      have hheld : s.mutex = .dispatcher := h.mutex.mpr (by simp [hposition])
      by_cases hempty : s.taskList.isEmpty
      · rw [if_pos hempty]
        exact ⟨by simp [hheld], fun _ => List.isEmpty_iff.mp hempty⟩
      · rw [if_neg hempty]
        exact ⟨by simp [hheld], nofun⟩
  | wait _ => exact of_outside nofun (by simp)
  | relock _ _ => exact ⟨by simp, nofun⟩
  | swap _ => exact of_outside nofun (by simp)
  | drop _ _ _ hposition _ _ =>
      exact h.of_moved (by simp [hposition]) (by simp) rfl
  | execute _ _ _ hposition _ _ =>
      exact h.of_moved (by simp [hposition]) (by simp) rfl
  | finish _ _ hposition _ =>
      exact h.of_moved (by simp [hposition]) (by simp) rfl
  | terminate _ hposition _ =>
      exact h.of_moved (by simp [hposition]) (by simp) rfl
  | deleteTask _ hposition =>
      exact h.of_moved (by simp [hposition]) (by simp) rfl
  | endBatch hposition _ =>
      exact h.of_moved (by simp [hposition]) (by simp) rfl

end Locked

namespace Awake

variable {s t : Dispatcher}

/-- Nobody is between push and unlock, so the notify is that of `addTask`. -/
theorem of_waiting (h : Awake s) (hlocked : Locked t)
    (hmutex : ∀ task, s.mutex ≠ .signalling task) (hposition : t.position = s.position)
    (hlist : t.taskList = s.taskList) (hsignals : t.signals = s.signals) : Awake t := by
  refine ⟨hlocked, ?_⟩
  intro hwait hne
  rw [hposition] at hwait
  rw [hlist] at hne
  obtain ⟨task, rest, heq, hpending⟩ := h.pending hwait hne
  refine ⟨task, rest, hlist.trans heq, Or.inl ?_⟩
  rw [hsignals]
  exact hpending.resolve_right (hmutex task)

/-- A push that ends the emptiness owes the notify, any other leaves the
first task the first. -/
theorem of_pushed (h : Awake s) (hlocked : Locked t)
    (hmutex : ∀ task, s.mutex ≠ .signalling task) (hposition : t.position = s.position)
    {task : Task} (hlist : t.taskList = s.taskList ++ [task])
    (hsignals : ∀ other ∈ s.signals, other ∈ t.signals)
    (howes : s.taskList = [] → task ∈ t.signals ∨ t.mutex = .signalling task) : Awake t := by
  refine ⟨hlocked, ?_⟩
  intro hwait _
  rw [hposition] at hwait
  cases hempty : s.taskList with
  | nil =>
      rw [hempty, List.nil_append] at hlist
      exact ⟨task, [], hlist, howes hempty⟩
  | cons first rest =>
      have hne : s.taskList ≠ [] := by
        rw [hempty]
        exact List.cons_ne_nil _ _
      obtain ⟨task', rest', heq, hpending⟩ := h.pending hwait hne
      rw [heq] at hlist
      exact ⟨task', rest' ++ [task], hlist,
        Or.inl (hsignals task' (hpending.resolve_right (hmutex task')))⟩

theorem step {a : Action} (h : Awake s) (hstep : Effect s a t) : Awake t := by
  have hlocked := h.toLocked.step hstep
  cases hstep with
  | lockAdd _ hmutex => exact h.of_waiting hlocked (by simp [hmutex]) rfl rfl rfl
  | readState _ hmutex => exact h.of_waiting hlocked (by simp [hmutex]) rfl rfl rfl
  | push expiration hmutex =>
      apply h.of_pushed hlocked (by simp [hmutex]) rfl rfl
      · intro other hother
        dsimp only
        split
        · exact List.mem_cons_of_mem _ hother
        · exact hother
      · intro hempty
        left
        dsimp only
        rw [if_pos (List.isEmpty_iff.mpr hempty)]
        exact List.mem_cons_self
  | refuse hmutex => exact h.of_waiting hlocked (by simp [hmutex]) rfl rfl rfl
  | notifyOne _ _ =>
      obtain ⟨position, heq, hne, -⟩ := notifyOne_eq { s with signals := _ }
      exact ⟨hlocked, fun hwait => absurd (by rw [heq] at hwait; exact hwait) hne⟩
  | lockShutdown hmutex => exact h.of_waiting hlocked (by simp [hmutex]) rfl rfl rfl
  | pushShutdown hmutex =>
      apply h.of_pushed hlocked (by simp [hmutex]) rfl rfl
      · exact fun _ hother => hother
      · exact fun _ => Or.inr rfl
  | notifyShutdown _ _ =>
      obtain ⟨position, heq, hne, -⟩ := notifyOne_eq { s with mutex := .free }
      exact ⟨hlocked, fun hwait => absurd (by rw [heq] at hwait; exact hwait) hne⟩
  | check _ =>
      refine ⟨hlocked, ?_⟩
      dsimp only
      split <;> exact nofun
  | test _ =>
      refine ⟨hlocked, ?_⟩
      dsimp only
      split <;> exact nofun
  | wait hposition => exact ⟨hlocked, fun _ hne => absurd (h.empty hposition) hne⟩
  | spuriousWake _ => exact ⟨hlocked, nofun⟩
  | lock _ _ => exact ⟨hlocked, nofun⟩
  | relock _ _ => exact ⟨hlocked, nofun⟩
  | swap _ => exact ⟨hlocked, nofun⟩
  | drop _ _ _ _ _ _ => exact ⟨hlocked, nofun⟩
  | execute _ _ _ _ _ _ => exact ⟨hlocked, nofun⟩
  | finish _ _ _ _ => exact ⟨hlocked, nofun⟩
  | terminate _ _ _ => exact ⟨hlocked, nofun⟩
  | deleteTask _ _ => exact ⟨hlocked, nofun⟩
  | endBatch _ _ => exact ⟨hlocked, nofun⟩

end Awake

theorem ordered_start : Ordered {} where
  accepted := rfl
  numbered := rfl
  outcomes := .refl _
  sequence := .refl _
  expired := nofun
  deleted := rfl
  drained _ := rfl

theorem awake_start : Awake {} where
  mutex := by simp
  empty := nofun
  pending := nofun

/-- Both invariants, over a run. -/
theorem ordered_awake_run (actions : List Action) {s : Dispatcher}
    (hrun : run actions = some s) : Ordered s ∧ Awake s := by
  have hpreserved : ∀ (a : Action) (s t : Dispatcher), Ordered s ∧ Awake s →
      Dispatcher.step a s = some t → Ordered t ∧ Awake t := by
    intro a s t h hstep
    have heffect := effect_of_step hstep
    exact ⟨h.1.step heffect, h.2.step heffect⟩
  exact PartialRun.run_preserves hpreserved actions {} s ⟨ordered_start, awake_start⟩ hrun

/-- **Order and wake-up.**  The accepted tasks are those that were taken,
the rest of the batch and the list, in this order; those that were taken were
called once or, if they had expired, dropped once, and nobody else was; and a
dispatcher that sleeps on its tasks will be notified. -/
structure InOrder (s : Dispatcher) : Prop where
  accepted : s.accepted = s.taken ++ s.tmpTaskList ++ s.taskList
  acceptance : s.accepted.map Task.number = List.range s.accepted.length
  sequence : s.executed.Sublist s.taken
  once : ∀ task ∈ s.taken,
    s.executed.count task + (s.dropped.map Prod.fst).count task = 1
  others : ∀ task, task ∈ s.executed ∨ task ∈ s.dropped.map Prod.fst → task ∈ s.taken
  expired : ∀ d ∈ s.dropped, d.1.hasExpired d.2 = true
  deleted : s.taken = s.deleted ++ s.position.current
  awake : s.position = .wait → s.taskList ≠ [] → s.NotifyPending

theorem Ordered.nodup {s : Dispatcher} (h : Ordered s) : s.taken.Nodup := by
  have hnumbers : (s.accepted.map Task.number).Nodup := by
    rw [h.numbered]
    exact List.nodup_range
  have haccepted := List.Nodup.of_map Task.number hnumbers
  rw [h.accepted, List.append_assoc] at haccepted
  exact (List.nodup_append.mp haccepted).1

theorem inOrder_of_ordered {s : Dispatcher} (h : Ordered s) (hawake : Awake s) : InOrder s where
  accepted := h.accepted
  acceptance := h.numbered
  sequence := h.sequence
  once := by
    intro task htask
    rw [← List.count_append, h.outcomes.count_eq]
    exact List.count_eq_one_of_mem h.nodup htask
  others := by
    intro task htask
    exact h.outcomes.subset (List.mem_append.mpr htask)
  expired := h.expired
  deleted := h.deleted
  awake := hawake.pending

theorem dispatcher_in_order (actions : List Action) (s : Dispatcher)
    (hrun : run actions = some s) : s.InOrder := by
  obtain ⟨hordered, hawake⟩ := ordered_awake_run actions hrun
  exact inOrder_of_ordered hordered hawake

/-- The dispatcher waits, one task is pushed and wakes it, another one is
pushed while the first, which has expired, is dropped. -/
def sampleActions : List Action :=
  [.check, .lock, .test, .wait, .lockAdd 5, .readState, .push, .notifyOne ⟨0, .callback 5⟩,
    .relock, .swap, .lockAdd 0, .readState, .push, .take 9]

theorem dispatcher_in_order_sample :
    ∃ s, run sampleActions = some s ∧ s.accepted.length = 2 ∧ s.InOrder := by
  have hrun : (run sampleActions).isSome := by decide +kernel
  obtain ⟨s, hs⟩ := Option.isSome_iff_exists.mp hrun
  have hlength : (run sampleActions).map (fun s => s.accepted.length) = some 2 := by
    decide +kernel
  rw [hs] at hlength
  exact ⟨s, hs, Option.some.inj hlength, dispatcher_in_order sampleActions s hs⟩

end Dispatcher

end LoginServer.Core
