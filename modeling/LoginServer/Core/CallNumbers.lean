import LoginServer.Core.References

/-!
# What the loops hold is older than what comes

Every registration has the number of its `connect`.  The loops hold copies of
registrations, also of some that are gone: in the storage they walk, and in
the callback they wait for.  All of these, and those of the calls so far,
have numbers below the next one.

## Main results

* `EmitFrame.advance_eq` — what a loop does next, and which registration it
  calls.
* `step_numbered` — every step keeps all of them below the next one.
-/

namespace LoginServer.Core

open LoginServer.Verified

/-- The registration a loop is about to call. -/
def EmitFrame.upcoming (f : EmitFrame) (reg : Registry) : Option Registration :=
  if f.reached < f.callbacksEnd then f.callbacks.read f.reached
  else if f.entered < f.modulesEnd ∧ f.topic.identifier.isEmpty = false then do
    let module ← f.modules.read f.entered
    let r ← (reg.registrations f.topic module).head?
    if r.callback ≠ f.callback then some r else none
  else none

section
variable {f f' : EmitFrame} {reg : Registry} {spare : Nat}

/-- What a loop does next. -/
structure EmitFrame.Advanced (f f' : EmitFrame) (reg : Registry) : Prop where
  topic : f'.topic = f.topic
  number : f'.number = f.number
  running : f'.running = f.upcoming reg
  callbacks : f'.callbacks = f.callbacks ∨
    ∃ module spare, f'.callbacks = .ofList ((reg.callbackVector f.topic module).getD []) spare

theorem EmitFrame.advance_eq (hidle : f.running = none)
    (h : f.advance spare reg = some (some f')) : f.Advanced f' reg := by
  unfold EmitFrame.advance at h
  split at h
  · rename_i hcallbacks
    simp only [Option.bind_eq_bind, Option.bind_eq_some_iff] at h
    obtain ⟨_, -, r, hr, h⟩ := h
    cases h
    refine ⟨rfl, rfl, ?_, .inl rfl⟩
    rw [EmitFrame.upcoming, if_pos hcallbacks, hr]
  · rename_i hcallbacks
    split at h
    · rename_i hmodules
      simp only [Option.bind_eq_bind, Option.bind_eq_some_iff] at h
      obtain ⟨module, hmodule, h⟩ := h
      split at h
      · rename_i hplain
        cases h
        refine ⟨rfl, rfl, ?_, .inr ⟨module, spare, rfl⟩⟩
        rw [EmitFrame.upcoming, if_neg hcallbacks, if_neg]
        · exact hidle
        · rw [hplain]
          exact fun hboth => nomatch hboth.2
      · rename_i hidentified
        have hupcoming : f.upcoming reg = (reg.registrations f.topic module).head?.bind
            fun r => if r.callback ≠ f.callback then some r else none := by
          rw [EmitFrame.upcoming, if_neg hcallbacks,
            if_pos ⟨hmodules, Bool.eq_false_iff.mpr hidentified⟩, hmodule]
          rfl
        split at h
        · rename_i hnone
          cases h
          refine ⟨rfl, rfl, ?_, .inl rfl⟩
          rw [hupcoming, hnone]
          exact hidle
        · rename_i r hsome
          split at h
          · rename_i hnew
            cases h
            refine ⟨rfl, rfl, ?_, .inl rfl⟩
            rw [hupcoming, hsome, Option.bind_some, if_pos hnew]
          · rename_i hsame
            cases h
            refine ⟨rfl, rfl, ?_, .inl rfl⟩
            rw [hupcoming, hsome, Option.bind_some, if_neg hsame]
            exact hidle
    · cases h

/-- It is read from the storage the loop walks, or from the module. -/
theorem EmitFrame.mem_upcoming {r : Registration} (h : r ∈ f.upcoming reg) :
    r ∈ f.callbacks.cells.getD [] ∨ ∃ module, r ∈ reg.registrations f.topic module := by
  unfold EmitFrame.upcoming at h
  split at h
  · apply Or.inl
    obtain ⟨cells, hcells, hr⟩ := Option.bind_eq_some_iff.mp h
    rw [hcells]
    exact List.mem_of_getElem? hr
  · split at h
    · simp only [Option.bind_eq_bind, Option.mem_def, Option.bind_eq_some_iff] at h
      obtain ⟨module, -, r', hr', h⟩ := h
      split at h
      · cases h
        exact Or.inr ⟨module, List.mem_of_head? hr'⟩
      · cases h
    · cases h

/-- The storage of a vector has what the vector has and what it had. -/
theorem mem_follow {α : Type} {v : LiveVector α} {current : Option (List α)} {x : α}
    (h : x ∈ (v.follow current).cells.getD []) :
    x ∈ v.cells.getD [] ∨ x ∈ current.getD [] := by
  unfold LiveVector.follow at h
  split at h
  · rename_i cells xs hcells
    rw [hcells]
    split at h
    · rcases List.mem_append.mp h with hx | hx
      · exact Or.inr hx
      · exact Or.inl (List.mem_of_mem_drop hx)
    · cases h
  · cases h

theorem mem_callbackVector {t : Topic} {m : ModuleId} {r : Registration}
    (h : r ∈ (reg.callbackVector t m).getD []) : r ∈ reg.registrations ⟨t.event, []⟩ m := by
  rwa [Registry.registrations_nil]

end

/-- The numbers in a state are below the next one. -/
structure World.Numbered (w : World) : Prop where
  tidy : w.registry.Tidy
  views : ∀ t, (w.registry.view t).WellFormed
  single : ∀ m t r m' t' r', r ∈ w.registry.registrations t m →
    r' ∈ w.registry.registrations t' m' → r.serial = r'.serial → r = r'
  calls : ∀ call ∈ w.calls, call.2 < w.registry.serial
  cells : ∀ f ∈ w.frames, ∀ r ∈ f.callbacks.cells.getD [], r.serial < w.registry.serial
  running : ∀ f ∈ w.frames, ∀ r ∈ f.running, r.serial < w.registry.serial

section
variable {w w' : World}

theorem World.Numbered.lt (h : w.Numbered) {m : ModuleId} {t : Topic} {r : Registration}
    (hr : r ∈ w.registry.registrations t m) : r.serial < w.registry.serial :=
  (h.views t).bound m r hr

theorem serial_le_apply (op : Op) (reg : Registry) : reg.serial ≤ (op.apply reg).serial :=
  (op.change reg ⟨[], []⟩).grows.serial

theorem serial_le_applyAll (ops : List Op) (reg : Registry) :
    reg.serial ≤ (reg.applyAll ops).serial := by
  induction ops generalizing reg with
  | nil => exact Nat.le_refl _
  | cons op ops ih => exact Nat.le_trans (serial_le_apply op reg) (ih _)

theorem World.Numbered.apply (h : w.Numbered) (op : Op) : (w.apply op).Numbered := by
  have hle : w.registry.serial ≤ (w.apply op).registry.serial := serial_le_apply op w.registry
  have hviews : ∀ t, ((w.apply op).registry.view t).WellFormed :=
    fun t => (op.change w.registry t).wellFormed (h.views t)
  constructor
  · exact op.tidy h.tidy
  · exact hviews
  · intro m t r m' t' r' hr hr' heq
    change r ∈ (op.apply w.registry).registrations t m at hr
    change r' ∈ (op.apply w.registry).registrations t' m' at hr'
    rw [op.registrations_apply h.tidy] at hr hr'
    rcases Ledger.mem_of_post hr with hold | ⟨hentry, hserial⟩
    · rcases Ledger.mem_of_post hr' with hold' | ⟨-, hserial'⟩
      · exact h.single m t r m' t' r' hold hold' heq
      · exact absurd (heq.trans hserial') (Nat.ne_of_lt (h.lt hold))
    · rcases Ledger.mem_of_post hr' with hold' | ⟨hentry', hserial'⟩
      · exact absurd (heq.symm.trans hserial) (Nat.ne_of_lt (h.lt hold'))
      · have hcallback := Entry.add.inj (hentry.symm.trans hentry')
        cases r
        cases r'
        cases hcallback.2.2
        cases heq
        rfl
  · exact fun call hcall => Nat.lt_of_lt_of_le (h.calls call hcall) hle
  · intro f hf r hr
    obtain ⟨g, hg, rfl⟩ := List.mem_map.mp hf
    rcases mem_follow hr with hold | hcurrent
    · exact Nat.lt_of_lt_of_le (h.cells g hg r hold) hle
    · exact (hviews ⟨g.topic.event, []⟩).bound g.walked r (mem_callbackVector hcurrent)
  · intro f hf r hr
    obtain ⟨g, hg, rfl⟩ := List.mem_map.mp hf
    exact Nat.lt_of_lt_of_le (h.running g hg r hr) hle

theorem World.Numbered.applyAll (h : w.Numbered) (ops : List Op) : (w.applyAll ops).Numbered := by
  induction ops generalizing w with
  | nil => exact h
  | cons op ops ih => exact ih (h.apply op)

theorem World.Numbered.record (h : w.Numbered) (event : Event) :
    (event.record w).Numbered := by
  cases event <;> exact ⟨h.tidy, h.views, h.single, h.calls, h.cells, h.running⟩

/-- The innermost loop goes on, is left, or waits for a callback no longer. -/
theorem World.Numbered.replace (h : w.Numbered) (hregistry : w'.registry = w.registry)
    (hcalls : ∀ call ∈ w'.calls, call.2 < w.registry.serial)
    (hframes : ∀ f ∈ w'.frames, f ∈ w.frames ∨
      (∀ r ∈ f.callbacks.cells.getD [], r.serial < w.registry.serial) ∧
        ∀ r ∈ f.running, r.serial < w.registry.serial) :
    w'.Numbered := by
  constructor
  · rw [hregistry]
    exact h.tidy
  · rw [hregistry]
    exact h.views
  · rw [hregistry]
    exact h.single
  · rw [hregistry]
    exact hcalls
  · intro f hf r hr
    rw [hregistry]
    rcases hframes f hf with hold | hnew
    · exact h.cells f hold r hr
    · exact hnew.1 r hr
  · intro f hf r hr
    rw [hregistry]
    rcases hframes f hf with hold | hnew
    · exact h.running f hold r hr
    · exact hnew.2 r hr

end

/-! ## What the loops show of themselves -/

section
variable {w w' : World}

theorem World.idle_iff (w : World) : w.Idle ↔ ∀ label ∈ w.labels.head?, label.2.2.isSome := by
  unfold World.Idle World.labels
  cases hframes : w.frames with
  | nil => simp
  | cons f frames =>
      show f.running.isSome = true ↔ _
      simp [EmitFrame.label]

theorem World.SameLoops.idle_iff (h : w.SameLoops w') : w'.Idle ↔ w.Idle := by
  rw [World.idle_iff, World.idle_iff, h.labels]

/-- The operations of a step, seen from the loops. -/
theorem Event.sameLoops (event : Event) (w : World) (ops : List Op) :
    (event.record w).labels = w.labels ∧ (event.record w).calls = w.calls ∧
      (event.record w).SameLoops ((event.record w).applyAll ops) := by
  refine ⟨?_, ?_, World.sameLoops_applyAll _ ops⟩
  · rw [World.labels, Event.record_frames, World.labels]
  · cases event <;> rfl

theorem running_of_not_idle {f : EmitFrame} {frames : List EmitFrame} (h : ¬ w.Idle)
    (hframes : w.frames = f :: frames) : f.running = none := by
  rw [World.Idle, hframes] at h
  exact Option.not_isSome_iff_eq_none.mp h

theorem World.Numbered.control {event : Event} (h : w.Numbered)
    (hidle : (∃ spare, event = .advance spare) → ¬ w.Idle)
    (hcontrol : event.control w = some w') : w'.Numbered := by
  cases event with
  | emit t spare =>
      cases hcontrol
      split
      · exact h.replace rfl h.calls fun f hf => Or.inl hf
      · apply h.replace
        · rfl
        · exact h.calls
        · intro f hf
          rcases List.mem_cons.mp hf with rfl | hf
          · exact Or.inr ⟨fun r hr => (List.not_mem_nil hr).elim, fun r hr => nomatch hr⟩
          · exact Or.inl hf
  | advance spare =>
      obtain ⟨f, frames, next, hframes, hnext, rfl⟩ := Event.control_advance hcontrol
      have hrest : ∀ g ∈ frames, g ∈ w.frames := by
        intro g hg
        rw [hframes]
        exact List.mem_cons_of_mem f hg
      cases next with
      | none => exact h.replace rfl h.calls fun g hg => Or.inl (hrest g hg)
      | some f' =>
          have hnone := running_of_not_idle (hidle ⟨spare, rfl⟩) hframes
          have hadvanced := EmitFrame.advance_eq hnone hnext
          have hf : f ∈ w.frames := by
            rw [hframes]
            exact List.mem_cons_self
          have hrunning : ∀ r ∈ f'.running, r.serial < w.registry.serial := by
            intro r hr
            rw [hadvanced.running] at hr
            rcases EmitFrame.mem_upcoming hr with hcell | ⟨module, hheld⟩
            · exact h.cells f hf r hcell
            · exact h.lt hheld
          apply h.replace
          · rfl
          · intro call hcall
            rcases List.mem_append.mp hcall with hold | hnew
            · exact h.calls call hold
            · obtain ⟨r, hr, rfl⟩ := Option.map_eq_some_iff.mp (Option.mem_toList.mp hnew)
              exact hrunning r hr
          · intro g hg
            rcases List.mem_cons.mp hg with rfl | hg
            · refine Or.inr ⟨?_, hrunning⟩
              rcases hadvanced.callbacks with hsame | ⟨module, spare', hnew⟩
              · rw [hsame]
                exact h.cells f hf
              · rw [hnew]
                exact fun r hr => h.lt (mem_callbackVector hr)
            · exact Or.inl (hrest g hg)
  | returned =>
      obtain ⟨f, frames, hframes, rfl⟩ := Event.control_returned hcontrol
      apply h.replace
      · rfl
      · exact h.calls
      · intro g hg
        rw [hframes]
        rcases List.mem_cons.mp hg with rfl | hg
        · refine Or.inr ⟨h.cells f ?_, fun r hr => nomatch hr⟩
          rw [hframes]
          exact List.mem_cons_self
        · exact Or.inl (List.mem_cons_of_mem f hg)
  | _ =>
      cases hcontrol
      exact h

theorem step_numbered {event : Event} (h : w.Numbered) (hstep : step event w = some w') :
    w'.Numbered := by
  obtain ⟨hpossible, ops, -, hcontrol⟩ := step_eq_some hstep
  obtain ⟨hlabels, -, hsame⟩ := event.sameLoops w ops
  refine ((h.record event).applyAll ops).control ?_ hcontrol
  rintro ⟨spare, rfl⟩
  rw [hsame.idle_iff]
  exact hpossible

theorem numbered_empty : World.Numbered {} := by
  constructor
  · exact Registry.tidy_empty
  · exact wellFormed_empty
  · intro m t r m' t' r' hr
    exact absurd ((wellFormed_empty t).bound m r hr) (Nat.not_lt_zero _)
  · exact fun call hcall => (List.not_mem_nil hcall).elim
  · exact fun f hf => (List.not_mem_nil hf).elim
  · exact fun f hf => (List.not_mem_nil hf).elim

end

end LoginServer.Core
