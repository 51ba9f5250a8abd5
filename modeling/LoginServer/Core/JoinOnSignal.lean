import LoginServer.Core.ServerThreads

/-!
# Joining on SIGINT

`sigintHandler` closes the server and joins the dispatcher and then the
subscriber.  Their loops test for `Terminated`; only the task of
`Dispatcher::shutdown` stores that, and the handler neither calls it nor
`stop`.  So it waits for a thread that nobody has told to stop, and never
comes to the second one.

## Main results

* `Unstopped.step` — no step of any thread tells one to stop.
* `stopped_before_join_iff` — the runs in which the handler waits for nobody.
* `not_joinRedis` — the first `join` does not return.
-/

namespace LoginServer.Core

open LoginServer.Verified

namespace Dispatcher

/-- The loop condition is false, or a task that makes it so is queued. -/
def ToldToStop (s : Dispatcher) : Prop :=
  s.threadState = .terminated ∨
    ∃ task ∈ s.position.executing ++ s.tmpTaskList ++ s.taskList, task.kind = .shutdown

/-- Only callbacks were ever added, and the state is that of `start`. -/
structure Unstopped (s : Dispatcher) : Prop where
  running : s.threadState = .running
  callbacks : ∀ task ∈ s.position.executing ++ s.tmpTaskList ++ s.taskList, task.IsCallback
  working : s.position ≠ .returned

theorem Unstopped.not_toldToStop {s : Dispatcher} (h : s.Unstopped) : ¬ s.ToldToStop := by
  rintro (hstate | ⟨task, htask, hkind⟩)
  · rw [h.running] at hstate
    cases hstate
  · exact h.callbacks task htask hkind

theorem unstopped_start : Unstopped {} where
  running := rfl
  callbacks := fun _ htask => (List.not_mem_nil htask).elim
  working := nofun

section
variable {s t : Dispatcher}

/-- A step that takes up no new task. -/
theorem Unstopped.of_tasks (h : s.Unstopped) (hstate : t.threadState = s.threadState)
    (htasks : ∀ task ∈ t.position.executing ++ t.tmpTaskList ++ t.taskList,
      task ∈ s.position.executing ++ s.tmpTaskList ++ s.taskList)
    (hposition : t.position ≠ .returned) : t.Unstopped where
  running := hstate.trans h.running
  callbacks := fun task htask => h.callbacks task (htasks task htask)
  working := hposition

theorem Unstopped.notifyOne (h : s.Unstopped) : s.notifyOne.Unstopped := by
  obtain ⟨position, heq, -, rfl | ⟨hwait, rfl⟩⟩ := s.notifyOne_eq
  · rw [heq]
    exact h
  · rw [heq]
    refine h.of_tasks rfl (fun task htask => ?_) nofun
    simpa [hwait] using htask

/-- No step but a push of `shutdown` brings a task of another kind, and no
other task stores `Terminated`. -/
theorem Unstopped.step {action : Action} (h : s.Unstopped) (hstep : Effect s action t)
    (haction : action ≠ .pushShutdown) : t.Unstopped := by
  cases hstep with
  | lockAdd _ _ => exact ⟨h.running, h.callbacks, h.working⟩
  | readState _ _ => exact ⟨h.running, h.callbacks, h.working⟩
  | push expiration _ =>
      refine ⟨h.running, fun task htask => ?_, h.working⟩
      have hcases : task ∈ s.position.executing ++ s.tmpTaskList ++ s.taskList ∨
          task = s.newTask (.callback expiration) := by
        simpa [pushBack, or_assoc] using htask
      rcases hcases with hold | rfl
      · exact h.callbacks task hold
      · exact fun h => by cases h
  | refuse _ => exact ⟨h.running, h.callbacks, h.working⟩
  | notifyOne task _ =>
      apply Unstopped.notifyOne
      exact ⟨h.running, h.callbacks, h.working⟩
  | lockShutdown _ => exact ⟨h.running, h.callbacks, h.working⟩
  | pushShutdown _ => exact absurd rfl haction
  | notifyShutdown _ _ =>
      apply Unstopped.notifyOne
      exact ⟨h.running, h.callbacks, h.working⟩
  | spuriousWake hposition =>
      exact h.of_tasks rfl (fun task htask => by simpa [hposition] using htask)
        (fun h => by cases h)
  | check hposition =>
      rw [if_neg (by simp [h.running])]
      exact h.of_tasks rfl (fun task htask => by simpa [hposition] using htask)
        (fun h => by cases h)
  | lock hposition _ =>
      exact h.of_tasks rfl (fun task htask => by simpa [hposition] using htask)
        (fun h => by cases h)
  | test hposition =>
      refine h.of_tasks rfl (fun task htask => ?_) ?_
      · dsimp only at htask
        split at htask <;> simpa [hposition] using htask
      · dsimp only
        split <;> exact fun h => by cases h
  | wait hposition =>
      exact h.of_tasks rfl (fun task htask => by simpa [hposition] using htask)
        (fun h => by cases h)
  | relock hposition _ =>
      exact h.of_tasks rfl (fun task htask => by simpa [hposition] using htask)
        (fun h => by cases h)
  | swap hposition =>
      refine h.of_tasks rfl (fun task htask => ?_) (fun h => by cases h)
      have hboth : task ∈ s.taskList ∨ task ∈ s.tmpTaskList := by simpa using htask
      simp only [hposition, Position.executing, List.nil_append, List.mem_append]
      exact hboth.symm
  | drop now task rest hposition hbatch _ =>
      refine h.of_tasks rfl (fun other hother => ?_) (fun h => by cases h)
      have hboth : other ∈ rest ∨ other ∈ s.taskList := by simpa using hother
      simp only [hposition, hbatch, Position.executing, List.nil_append, List.mem_append,
        List.mem_cons]
      exact hboth.imp_left Or.inr
  | execute now task rest hposition hbatch _ =>
      refine h.of_tasks rfl (fun other hother => ?_) (fun h => by cases h)
      simpa [hposition, hbatch] using hother
  | finish task _ hposition _ =>
      refine h.of_tasks rfl (fun other hother => ?_) (fun h => by cases h)
      have hboth : other ∈ s.tmpTaskList ∨ other ∈ s.taskList := by simpa using hother
      simp only [hposition, Position.executing, List.mem_append]
      exact hboth.imp_left Or.inr
  | terminate task hposition hkind =>
      have hcallback : task.IsCallback := h.callbacks task (by simp [hposition])
      exact absurd hkind hcallback
  | deleteTask task hposition =>
      exact h.of_tasks rfl (fun other hother => by simpa [hposition] using hother)
        (fun h => by cases h)
  | endBatch hposition _ =>
      exact h.of_tasks rfl (fun task htask => by simpa [hposition] using htask)
        (fun h => by cases h)

end

end Dispatcher

/-! ## The subscriber -/

/-- Nobody stores another state than that of `start`. -/
theorem Subscriber.step_threadState {action : SubscriberStep} {s t : Subscriber}
    (h : Subscriber.step action s = some t) : t.threadState = s.threadState := by
  cases action with
  | check =>
      simp only [Subscriber.step, Option.ite_none_right_eq_some, Option.some.injEq] at h
      rw [← h.2]
  | select ready =>
      simp only [Subscriber.step, Option.ite_none_right_eq_some, Option.some.injEq] at h
      rw [← h.2]
  | read ok =>
      simp only [Subscriber.step, Option.ite_none_right_eq_some, Option.some.injEq] at h
      rw [← h.2]
  | reply reply =>
      simp only [Subscriber.step, Option.ite_none_right_eq_some] at h
      cases reply with
      | none => rw [← Option.some.inj h.2]
      | ignored => rw [← Option.some.inj h.2]
      | message => rw [← Option.some.inj h.2]

theorem Subscriber.addTask_threadState {s t : Subscriber} {d : Dispatcher} {action : Action}
    (h : s.addTask d action = some t) : t.threadState = s.threadState := by
  unfold Subscriber.addTask at h
  split at h
  · simp only [Option.ite_none_right_eq_some, Option.some.injEq] at h
    rw [← h.2]
  all_goals
    cases h
    try rfl

theorem Subscriber.addTask_ne_pushShutdown {s t : Subscriber} {d : Dispatcher}
    {action : Action} (h : s.addTask d action = some t) : action ≠ .pushShutdown := by
  rintro rfl
  cases h

namespace ServerThreads

/-! ## The three threads -/

/-- A thread that is being joined has been told to stop. -/
def JoinsStopped (s : ServerThreads) : Prop :=
  (s.io = .joinDispatcher → s.dispatcher.ToldToStop) ∧
    (s.io = .joinRedis → s.subscriber.threadState = .terminated)

/-- Nobody has been told to stop, and the handler is not past its first
`join`. -/
structure NobodyStopped (s : ServerThreads) : Prop where
  dispatcher : s.dispatcher.Unstopped
  subscriber : s.subscriber.threadState = .running
  io : s.io ≠ .joinRedis

variable {s s' : ServerThreads}

theorem NobodyStopped.step {input : Input} (h : s.NobodyStopped)
    (hstep : step input s = some s') : s'.NobodyStopped := by
  cases moved_of_step hstep with
  | dispatcher hadd hdispatcher hio =>
      constructor
      · exact h.dispatcher.step (Dispatcher.effect_of_step hdispatcher)
          (Subscriber.addTask_ne_pushShutdown hadd)
      · exact (Subscriber.addTask_threadState hadd).trans h.subscriber
      · rw [hio]
        exact h.io
  | subscriber hsubscriber hdispatcher hio =>
      constructor
      · rw [hdispatcher]
        exact h.dispatcher
      · exact (Subscriber.step_threadState hsubscriber).trans h.subscriber
      · rw [hio]
        exact h.io
  | io hdispatcher hsubscriber hio =>
      constructor
      · rw [hdispatcher]
        exact h.dispatcher
      · rw [hsubscriber]
        exact h.subscriber
      · generalize s'.io = io at hio
        cases hio with
        | stays => exact h.io
        | handler _ _ => exact nofun
        | run => exact nofun
        | sigint => exact nofun
        | joinDispatcher => exact nofun
        | joinRedis hreturned => exact absurd hreturned h.dispatcher.working
        | stopped => exact nofun

/-- Where nobody is told to stop, nobody may be waited for. -/
theorem joinsStopped_iff (h : s.NobodyStopped) :
    s.JoinsStopped ↔ s.io ≠ .joinDispatcher := by
  constructor
  · intro hjoins hio
    exact h.dispatcher.not_toldToStop (hjoins.1 hio)
  · intro hio
    exact ⟨fun hjoin => absurd hjoin hio, fun hjoin => absurd hjoin h.io⟩

/-- The handler gets to its first `join` by calling it. -/
theorem joinsStopped_step_iff {input : Input} (h : s.NobodyStopped) (hs : s.JoinsStopped)
    (hstep : step input s = some s') : s'.JoinsStopped ↔ input ≠ .joinDispatcher := by
  rw [joinsStopped_iff (h.step hstep)]
  have hbefore := (joinsStopped_iff h).mp hs
  cases moved_of_step hstep with
  | dispatcher _ _ hio =>
      rw [hio]
      exact iff_of_true hbefore nofun
  | subscriber _ _ hio =>
      rw [hio]
      exact iff_of_true hbefore nofun
  | io _ _ hio =>
      generalize s'.io = io at hio
      cases hio with
      | stays hinput => exact iff_of_true hbefore hinput
      | handler _ hinput => exact iff_of_true nofun hinput
      | run hinput => exact iff_of_true nofun (by simp [hinput])
      | sigint hinput => exact iff_of_true nofun (by simp [hinput])
      | joinDispatcher hinput => exact iff_of_false (not_not_intro rfl) (not_not_intro hinput)
      | joinRedis _ hinput => exact iff_of_true nofun (by simp [hinput])
      | stopped hinput => exact iff_of_true nofun (by simp [hinput])

theorem nobodyStopped_start : NobodyStopped {} where
  dispatcher := Dispatcher.unstopped_start
  subscriber := rfl
  io := nofun

theorem nobodyStopped_run {inputs : List Input} (h : run inputs = some s) :
    s.NobodyStopped := by
  have hpreserved : ∀ (input : Input) (s t : ServerThreads), s.NobodyStopped →
      step input s = some t → t.NobodyStopped := fun _ _ _ hs hstep => hs.step hstep
  exact PartialRun.run_preserves hpreserved inputs {} s nobodyStopped_start h

/-- The first `join` never returns: the handler does not get to the second. -/
theorem not_joinRedis {inputs : List Input} (h : run inputs = some s) :
    step .joinRedis s = none ∧ s.io ≠ .joinRedis := by
  have hnobody := nobodyStopped_run h
  constructor
  · simp only [step, guard, hnobody.dispatcher.working, and_false]
    rfl
  · exact hnobody.io

/-- Every thread that is waited for has been told to stop, in every state of
a run, if and only if the handler does not come to its first `join`. -/
theorem stopped_before_join_iff (inputs : List Input) (s : ServerThreads)
    (h : run inputs = some s) :
    PartialRun.Throughout step JoinsStopped inputs {} ↔ .joinDispatcher ∉ inputs := by
  have hiff : ∀ (input : Input) (t t' : ServerThreads), t.NobodyStopped → t.JoinsStopped →
      step input t = some t' →
        t'.NobodyStopped ∧ (t'.JoinsStopped ↔ input ≠ .joinDispatcher) :=
    fun _ _ _ hnobody hjoins hstep =>
      ⟨hnobody.step hstep, joinsStopped_step_iff hnobody hjoins hstep⟩
  have hstart : JoinsStopped {} := ⟨nofun, nofun⟩
  rw [PartialRun.throughout_iff_obeys hiff inputs {} s nobodyStopped_start hstart h,
    PartialRun.obeys_iff_forall_mem h]
  constructor
  · exact fun hall hmem => hall _ hmem rfl
  · exact fun hnot input hmem heq => hnot (heq ▸ hmem)

/-- SIGINT arrives, and nobody has waited for a thread yet. -/
theorem stopped_before_join_sample :
    ∃ s, run [.dispatcher .check, .subscriber .check, .sigint] = some s ∧
      PartialRun.Throughout step JoinsStopped
        [.dispatcher .check, .subscriber .check, .sigint] {} := by
  have hmap : (run [.dispatcher .check, .subscriber .check, .sigint]).map (fun s => s.io) =
      some .sigint := by
    decide +kernel
  obtain ⟨s, hrun, -⟩ := Option.map_eq_some_iff.mp hmap
  exact ⟨s, hrun, (stopped_before_join_iff _ s hrun).mpr (by decide)⟩

/-- SIGINT arrives while the dispatcher waits for a task. -/
theorem join_of_running_thread :
    ∃ s, run [.dispatcher .check, .dispatcher .lock, .dispatcher .test, .dispatcher .wait,
          .sigint, .joinDispatcher] = some s ∧
      s.io = .joinDispatcher ∧ s.dispatcher.position = .wait ∧ ¬ s.dispatcher.ToldToStop ∧
      ¬ s.JoinsStopped := by
  have hmap : (run [.dispatcher .check, .dispatcher .lock, .dispatcher .test,
      .dispatcher .wait, .sigint, .joinDispatcher]).map
        (fun s => (s.io, s.dispatcher.position, s.dispatcher.threadState,
          s.dispatcher.tmpTaskList, s.dispatcher.taskList)) =
      some (.joinDispatcher, .wait, .running, [], []) := by
    decide +kernel
  obtain ⟨s, hrun, heq⟩ := Option.map_eq_some_iff.mp hmap
  simp only [Prod.mk.injEq] at heq
  obtain ⟨hio, hposition, hstate, hbatch, hlist⟩ := heq
  have hnot : ¬ s.dispatcher.ToldToStop := by
    simp [Dispatcher.ToldToStop, hposition, hstate, hbatch, hlist]
  exact ⟨s, hrun, hio, hposition, hnot, fun hjoins => hnot (hjoins.1 hio)⟩

end ServerThreads

end LoginServer.Core
