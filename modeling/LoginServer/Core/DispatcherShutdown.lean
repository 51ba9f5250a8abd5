import LoginServer.Core.DispatcherOrder

/-!
# What shutdown leaves behind

`addTask` accepts a task as long as the thread state it has read is `Running`,
and that state turns when the task of `shutdown` is called.  But the list is
not looked at any more once that task has been swapped out: the loop condition
fails after the batch.  A task that is pushed after the swap is accepted and
never taken, also when `addTask` had read the state earlier and pushes after
`threadMain` has returned.

## Main results

* `doomed_step`, `taskList_step` — what an action does to the two sides of the
  argument.
* `noneLeft_iff` — which tasks are in the list after the last swap.
* `none_abandoned_iff` — exactly which runs abandon no task.
-/

namespace LoginServer.Core

open LoginServer.Verified

/-- The task was accepted by `addTask`. -/
def Task.IsCallback (task : Task) : Prop := task.kind ≠ .shutdown

instance (task : Task) : Decidable task.IsCallback := inferInstanceAs (Decidable (_ ≠ _))

/-- The task in `(*task)()`. -/
@[simp] def Position.executing : Position → List Task
  | .execute task => [task]
  | _ => []

/-- `threadMain` is between its test of the state and the next batch. -/
@[simp] def Position.Listening : Position → Prop
  | .lock => True
  | .test => True
  | .sleep => True
  | .wait => True
  | .woken => True
  | .swap => True
  | _ => False

namespace Dispatcher

/-- The list has been swapped for the last time: a task of `shutdown` is in
the batch or being called, or the state has turned. -/
def Doomed (s : Dispatcher) : Prop :=
  s.threadState = .terminated ∨
    ∃ task ∈ s.position.executing ++ s.tmpTaskList, task.kind = .shutdown

instance (s : Dispatcher) : Decidable s.Doomed :=
  inferInstanceAs (Decidable (_ ∨ ∃ task ∈ _, _))

/-- The task an action pushes. -/
def pushed : Action → Dispatcher → Option Task
  | .push, s =>
      match s.mutex with
      | .pushing expiration => some (s.newTask (.callback expiration))
      | _ => none
  | .pushShutdown, s => some (s.newTask .shutdown)
  | _, _ => none

/-- `threadMain` is between its test of the state and the next batch exactly
while the state allows it, and has left once it has turned. -/
structure Running (s : Dispatcher) : Prop where
  listening : s.position.Listening → s.threadState ≠ .terminated
  returned : s.position = .returned → s.threadState = .terminated

namespace Running

variable {s t : Dispatcher}

theorem of_same (h : Running s) (hstate : t.threadState = s.threadState)
    (hlistening : t.position.Listening → s.position.Listening)
    (hreturned : t.position = .returned → s.position = .returned) : Running t := by
  constructor
  · intro hposition
    rw [hstate]
    exact h.listening (hlistening hposition)
  · intro hposition
    rw [hstate]
    exact h.returned (hreturned hposition)

theorem notifyOne (h : Running s) : Running s.notifyOne := by
  obtain ⟨position, heq, -, rfl | ⟨hwait, rfl⟩⟩ := s.notifyOne_eq
  · rw [heq]
    exact h
  · rw [heq]
    exact h.of_same rfl (fun _ => by simp [hwait]) nofun

theorem step {a : Action} (h : Running s) (hstep : Effect s a t) : Running t := by
  cases hstep with
  | lockAdd _ _ => exact h.of_same rfl id id
  | readState _ _ => exact h.of_same rfl id id
  | push _ _ => exact h.of_same rfl id id
  | refuse _ => exact h.of_same rfl id id
  | notifyOne task _ =>
      exact (show Running { s with signals := s.signals.erase task } from
        h.of_same rfl id id).notifyOne
  | lockShutdown _ => exact h.of_same rfl id id
  | pushShutdown _ => exact h.of_same rfl id id
  | notifyShutdown _ _ =>
      exact (show Running { s with mutex := .free } from h.of_same rfl id id).notifyOne
  | spuriousWake hposition =>
      exact h.of_same rfl (fun _ => by simp [hposition]) nofun
  | check _ =>
      by_cases hstate : s.threadState = .terminated
      · rw [if_pos hstate]
        exact ⟨fun hposition => hposition.elim, fun _ => hstate⟩
      · rw [if_neg hstate]
        exact ⟨fun _ => hstate, nofun⟩
  | lock hposition _ =>
      exact h.of_same rfl (fun _ => by simp [hposition]) nofun
  | test hposition =>
      refine h.of_same rfl ?_ ?_
      · intro _
        rw [hposition]
        exact trivial
      · dsimp only
        split <;> exact nofun
  | wait hposition =>
      exact h.of_same rfl (fun _ => by simp [hposition]) nofun
  | relock hposition _ =>
      exact h.of_same rfl (fun _ => by simp [hposition]) nofun
  | swap _ => exact h.of_same rfl (fun hposition => hposition.elim) nofun
  | drop _ _ _ _ _ _ => exact h.of_same rfl (fun hposition => hposition.elim) nofun
  | execute _ _ _ _ _ _ => exact h.of_same rfl (fun hposition => hposition.elim) nofun
  | finish _ _ _ _ => exact h.of_same rfl (fun hposition => hposition.elim) nofun
  | terminate _ _ _ => exact ⟨fun hposition => hposition.elim, nofun⟩
  | deleteTask _ _ => exact h.of_same rfl (fun hposition => hposition.elim) nofun
  | endBatch _ _ => exact h.of_same rfl (fun hposition => hposition.elim) nofun

end Running

/-! ## The two sides of a push -/

section
variable {s t : Dispatcher}

theorem doomed_congr (hstate : t.threadState = s.threadState)
    (htasks : t.position.executing ++ t.tmpTaskList = s.position.executing ++ s.tmpTaskList) :
    t.Doomed ↔ s.Doomed := by
  unfold Doomed
  rw [hstate, htasks]

theorem doomed_notifyOne : s.notifyOne.Doomed ↔ s.Doomed := by
  obtain ⟨position, heq, -, rfl | ⟨hwait, rfl⟩⟩ := s.notifyOne_eq
  · rw [heq]
  · rw [heq]
    exact doomed_congr rfl (by simp [hwait])

/-- A task that is not that of `shutdown` decides nothing. -/
theorem doomed_cons {task : Task} {rest : List Task} (hkind : task.kind ≠ .shutdown) :
    (∃ other ∈ task :: rest, other.kind = .shutdown) ↔
      ∃ other ∈ rest, other.kind = .shutdown := by
  simp [hkind]

/-- Only a swap can bring the task of `shutdown` into the batch, and nothing
gets rid of it but its call, which turns the state. -/
theorem doomed_step {a : Action} (hstep : Effect s a t) (ha : a ≠ .swap) :
    t.Doomed ↔ s.Doomed := by
  cases hstep with
  | lockAdd _ _ => exact Iff.rfl
  | readState _ _ => exact Iff.rfl
  | push _ _ => exact Iff.rfl
  | refuse _ => exact Iff.rfl
  | notifyOne _ _ => exact doomed_notifyOne
  | lockShutdown _ => exact Iff.rfl
  | pushShutdown _ => exact Iff.rfl
  | notifyShutdown _ _ => exact doomed_notifyOne
  | spuriousWake hposition => exact doomed_congr rfl (by simp [hposition])
  | check hposition =>
      refine doomed_congr rfl ?_
      rw [hposition]
      dsimp only
      split <;> rfl
  | lock hposition _ => exact doomed_congr rfl (by simp [hposition])
  | test hposition =>
      refine doomed_congr rfl ?_
      rw [hposition]
      dsimp only
      split <;> rfl
  | wait hposition => exact doomed_congr rfl (by simp [hposition])
  | relock hposition _ => exact doomed_congr rfl (by simp [hposition])
  | swap _ => exact absurd rfl ha
  | drop now task rest hposition hbatch hexpired =>
      have hkind : task.kind ≠ .shutdown := by
        intro hshutdown
        unfold Task.hasExpired at hexpired
        rw [hshutdown] at hexpired
        cases hexpired
      unfold Doomed
      rw [hposition, hbatch]
      exact or_congr_right (doomed_cons hkind).symm
  | execute _ _ _ hposition hbatch _ =>
      exact doomed_congr rfl (by simp [hposition, hbatch])
  | finish task expiration hposition hkind =>
      unfold Doomed
      rw [hposition]
      exact or_congr_right (doomed_cons (by simp [hkind])).symm
  | terminate task hposition hkind =>
      constructor
      · intro _
        refine Or.inr ⟨task, ?_, hkind⟩
        rw [hposition]
        exact List.mem_cons_self
      · exact fun _ => Or.inl rfl
  | deleteTask _ hposition => exact doomed_congr rfl (by simp [hposition])
  | endBatch hposition _ => exact doomed_congr rfl (by simp [hposition])

/-- Between two swaps the list only grows, by what is pushed. -/
theorem taskList_step {a : Action} (hstep : Effect s a t) (ha : a ≠ .swap) :
    t.taskList = s.taskList ++ (pushed a s).toList := by
  have hnotify : ∀ s : Dispatcher, s.notifyOne.taskList = s.taskList := by
    intro s
    obtain ⟨position, heq, -⟩ := s.notifyOne_eq
    rw [heq]
  cases hstep with
  | push expiration hmutex =>
      have hpushed : pushed .push s = some (s.newTask (.callback expiration)) := by
        simp only [pushed, hmutex]
      rw [hpushed]
      rfl
  | pushShutdown _ => rfl
  | swap _ => exact absurd rfl ha
  | notifyOne _ _ =>
      rw [hnotify]
      exact (List.append_nil _).symm
  | notifyShutdown _ _ =>
      rw [hnotify]
      exact (List.append_nil _).symm
  | _ => exact (List.append_nil _).symm

/-- Before the swap the state has not turned and no batch is there. -/
theorem not_doomed_of_swap (h : Ordered s) (hrunning : Running s)
    (hposition : s.position = .swap) : ¬ s.Doomed := by
  have hempty : s.tmpTaskList = [] := h.drained (by simp [hposition])
  rintro (hstate | ⟨task, htask, -⟩)
  · exact hrunning.listening (by simp [hposition]) hstate
  · rw [hposition, hempty] at htask
    cases htask

/-- None of the tasks that matter is in a list that will not be looked at. -/
def NoneLeft (p : Task → Prop) (s : Dispatcher) : Prop :=
  s.Doomed → ∀ task ∈ s.taskList, ¬ p task

/-- A task that matters is not pushed any more after the last swap. -/
def Timely (p : Task → Prop) (a : Action) (s : Dispatcher) : Prop :=
  ∀ task, pushed a s = some task → p task → ¬ s.Doomed

theorem noneLeft_step {p : Task → Prop} {a : Action} (h : Ordered s) (hrunning : Running s)
    (hstep : Effect s a t) : NoneLeft p t ↔ NoneLeft p s ∧ Timely p a s := by
  by_cases ha : a = .swap
  · subst ha
    cases hstep with
    | swap hposition =>
        have halive := not_doomed_of_swap h hrunning hposition
        have hempty : s.tmpTaskList = [] := h.drained (by simp [hposition])
        constructor
        · exact fun _ => ⟨fun hdoomed => absurd hdoomed halive, nofun⟩
        · intro _ _ task htask
          rw [show ({ s with
            taskList := s.tmpTaskList, tmpTaskList := s.taskList, mutex := .free
            position := .batch } : Dispatcher).taskList = [] from hempty] at htask
          cases htask
  · unfold NoneLeft Timely
    rw [doomed_step hstep ha, taskList_step hstep ha]
    constructor
    · intro hnone
      constructor
      · intro hdoomed task htask
        exact hnone hdoomed task (List.mem_append_left _ htask)
      · intro task htask hp hdoomed
        refine hnone hdoomed task (List.mem_append_right _ ?_) hp
        rw [htask]
        exact List.mem_cons_self
    · rintro ⟨hnone, htimely⟩ hdoomed task htask hp
      rcases List.mem_append.mp htask with htask | htask
      · exact hnone hdoomed task htask hp
      · exact htimely task (Option.mem_toList.mp htask) hp hdoomed

end

theorem running_start : Running {} where
  listening := fun h => h.elim
  returned := nofun

/-- Which tasks a run leaves in the list once it will not be looked at. -/
theorem noneLeft_iff (p : Task → Prop) (actions : List Action) {s : Dispatcher}
    (hrun : run actions = some s) :
    (Ordered s ∧ Running s) ∧
      (NoneLeft p s ↔ PartialRun.Obeys step (Timely p) actions {}) := by
  have hinvariant : ∀ (a : Action) (s t : Dispatcher), Ordered s ∧ Running s →
      step a s = some t → Ordered t ∧ Running t := by
    intro a s t h hstep
    have heffect := effect_of_step hstep
    exact ⟨h.1.step heffect, h.2.step heffect⟩
  have hkeeps : ∀ (a : Action) (s t : Dispatcher), Ordered s ∧ Running s → True →
      step a s = some t →
        (Ordered t ∧ Running t) ∧ (NoneLeft p t ↔ NoneLeft p s ∧ Timely p a s) := by
    intro a s t h _ hstep
    exact ⟨hinvariant a s t h hstep, noneLeft_step h.1 h.2 (effect_of_step hstep)⟩
  have hstart : Ordered {} ∧ Running {} := ⟨ordered_start, running_start⟩
  have hnone : NoneLeft p {} := fun _ _ htask => nomatch htask
  refine ⟨PartialRun.run_preserves hinvariant actions {} s hstart hrun, ?_⟩
  rw [PartialRun.run_iff_obeys hkeeps actions {} s hstart
    (PartialRun.obeys_of_forall (fun _ _ => trivial) actions _) hrun]
  exact and_iff_right hnone

/-- **No accepted task is abandoned.**  Every task that `addTask` accepted was
called or dropped as expired, and deleted; none is left in the list. -/
def Settled (s : Dispatcher) : Prop :=
  ∀ task ∈ s.accepted, task.IsCallback →
    (task ∈ s.executed ∨ task ∈ s.dropped.map Prod.fst) ∧ task ∈ s.deleted ∧
      task ∉ s.taskList

theorem settled_iff {s : Dispatcher} (h : Ordered s) (hrunning : Running s)
    (hreturned : s.position = .returned) : Settled s ↔ NoneLeft Task.IsCallback s := by
  have hdoomed : s.Doomed := Or.inl (hrunning.returned hreturned)
  have hempty : s.tmpTaskList = [] := h.drained (by simp [hreturned])
  have haccepted := h.accepted
  rw [hempty, List.append_nil] at haccepted
  have hdeleted := h.deleted
  rw [hreturned] at hdeleted
  constructor
  · intro hsettled _ task htask hcallback
    have hmem : task ∈ s.accepted := by
      rw [haccepted]
      exact List.mem_append_right _ htask
    exact (hsettled task hmem hcallback).2.2 htask
  · intro hnone task hmem hcallback
    have hleft : task ∉ s.taskList := fun htask => hnone hdoomed task htask hcallback
    rw [haccepted] at hmem
    have htaken := (List.mem_append.mp hmem).resolve_right hleft
    refine ⟨List.mem_append.mp (h.outcomes.symm.subset htaken), ?_, hleft⟩
    rw [hdeleted] at htaken
    exact (List.mem_append.mp htaken).resolve_right (List.not_mem_nil)

/-- The `addTask` that pushes does so before the list is swapped for the last
time. -/
def PushesInTime (a : Action) (s : Dispatcher) : Prop := Timely Task.IsCallback a s

/-- **Exactly which runs abandon no task**, once `threadMain` has returned. -/
theorem none_abandoned_iff (actions : List Action) (s : Dispatcher)
    (hrun : run actions = some s) (hreturned : s.position = .returned) :
    s.Settled ↔ PartialRun.Obeys step PushesInTime actions {} := by
  obtain ⟨⟨hordered, hrunning⟩, hnone⟩ := noneLeft_iff Task.IsCallback actions hrun
  exact (settled_iff hordered hrunning hreturned).trans hnone

/-- A task and then the task of `shutdown` are pushed, and both are run. -/
def orderlyShutdown : List Action :=
  [.lockAdd 0, .readState, .push, .lockShutdown, .pushShutdown, .notifyShutdown,
    .check, .lock, .test, .swap, .take 0, .finish, .deleteTask, .take 0, .finish, .deleteTask,
    .endBatch, .check]

theorem none_abandoned_sample :
    ∃ s, run orderlyShutdown = some s ∧ s.position = .returned ∧
      (s.Settled ↔ PartialRun.Obeys step PushesInTime orderlyShutdown {}) := by
  have hrun : (run orderlyShutdown).map Dispatcher.position = some .returned := by
    decide +kernel
  obtain ⟨s, hs, hreturned⟩ := Option.map_eq_some_iff.mp hrun
  exact ⟨s, hs, hreturned, none_abandoned_iff orderlyShutdown s hs hreturned⟩

/-- `addTask` pushes while the dispatcher calls the task of `shutdown`. -/
def lateTask : List Action :=
  [.lockShutdown, .pushShutdown, .notifyShutdown, .check, .lock, .test, .swap, .take 0,
    .lockAdd 0, .readState, .push, .notifyOne ⟨1, .callback 0⟩, .finish, .deleteTask,
    .endBatch, .check]

/-- Its task was accepted, `threadMain` has returned, and nobody will take it. -/
theorem late_task_abandoned :
    ∃ s, run lateTask = some s ∧ s.position = .returned ∧ ¬ s.Settled := by
  have hrun : (run lateTask).map (fun s => (s.position, s.accepted, s.taskList)) =
      some (.returned, [⟨0, .shutdown⟩, ⟨1, .callback 0⟩], [⟨1, .callback 0⟩]) := by
    decide +kernel
  obtain ⟨s, hs, heq⟩ := Option.map_eq_some_iff.mp hrun
  simp only [Prod.mk.injEq] at heq
  obtain ⟨hreturned, haccepted, hlist⟩ := heq
  refine ⟨s, hs, hreturned, ?_⟩
  intro hsettled
  have hleft := (hsettled ⟨1, .callback 0⟩ (by rw [haccepted]; simp) nofun).2.2
  rw [hlist] at hleft
  exact hleft List.mem_cons_self

end Dispatcher

end LoginServer.Core
