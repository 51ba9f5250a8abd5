import Mathlib.Data.List.Nodup
import LoginServer.Core.Module

/-!
# Who listens to a topic

A topic is an event, with or without an identifier.  For one topic the maps
of the manager and of its modules amount to a `View`: the modules that are
listed, in order, and the registrations of each.  Three things can happen to
a view: nothing, one registration more, or some less for one module.

## Main results

* `View.Change.wellFormed` — modules stay listed once, and every registration
  is new.
* `View.Change.grows` — a registration that is gone does not come back.
-/

namespace LoginServer.Core

open LoginServer.Network (Bytes)

structure Topic where
  event : EventName
  identifier : Identifier
  deriving DecidableEq, Repr

/-- What the registry holds about one topic. -/
structure View where
  subscribers : List ModuleId
  registrations : ModuleId → List Registration
  serial : Nat

/-- The registrations in the order in which they are served. -/
def View.snapshot (v : View) : List Nat :=
  v.subscribers.flatMap fun m => (v.registrations m).map Registration.serial

/-- What a module keeps for a topic. -/
def Module.registrations (m : Module) (t : Topic) : List Registration :=
  if t.identifier.isEmpty then (m.eventCallbacks.lookup t.event).getD []
  else ((m.identifiedEventCallbacks.lookup t.event).bind (AList.lookup t.identifier)).toList

namespace Registry

def subscribers (reg : Registry) (t : Topic) : Option (List ModuleId) :=
  if t.identifier.isEmpty then reg.moduleEvents.lookup t.event
  else reg.identifiedModuleEvents.lookup t.event

def registrations (reg : Registry) (t : Topic) (m : ModuleId) : List Registration :=
  (reg.module m).registrations t

def view (reg : Registry) (t : Topic) : View :=
  ⟨(reg.subscribers t).getD [], reg.registrations t, reg.serial⟩

end Registry

/-! ## What can happen to a view -/

inductive View.Change (v v' : View) : Prop where
  | same (hsubscribers : v'.subscribers = v.subscribers)
      (hregistrations : ∀ m, v'.registrations m = v.registrations m)
      (hserial : v.serial ≤ v'.serial)
  | subscribe (this : ModuleId) (new : List Registration)
      (hsubscribers : v'.subscribers = Registry.enlist v.subscribers this)
      (hthis : v'.registrations this = v.registrations this ++ new)
      (hother : ∀ m, m ≠ this → v'.registrations m = v.registrations m)
      (hone : new.length ≤ 1)
      (hnew : ∀ r ∈ new, r.serial = v.serial)
      (hserial : v.serial < v'.serial)
  | unsubscribe (this : ModuleId) (keep : Registration → Bool)
      (hsubscribers : v'.subscribers = v.subscribers ∨
        (v'.registrations this = [] ∧ v'.subscribers = v.subscribers.filter (· ≠ this)))
      (hthis : v'.registrations this = (v.registrations this).filter keep)
      (hother : ∀ m, m ≠ this → v'.registrations m = v.registrations m)
      (hserial : v.serial ≤ v'.serial)

/-- Modules with a registration are listed, no module twice, and no two
registrations come from one `connect`. -/
structure View.WellFormed (v : View) : Prop where
  nodup : v.subscribers.Nodup
  listed : ∀ m, v.registrations m ≠ [] → m ∈ v.subscribers
  bound : ∀ m, ∀ r ∈ v.registrations m, r.serial < v.serial
  distinct : ∀ m, ((v.registrations m).map Registration.serial).Nodup
  separate : ∀ m m' r r', r ∈ v.registrations m → r' ∈ v.registrations m' →
    r.serial = r'.serial → m = m'

/-- What is in the second view and was made before the first is in the first,
in the same order. -/
structure View.Grows (v v' : View) : Prop where
  serial : v.serial ≤ v'.serial
  older : ∀ m, (((v'.registrations m).map Registration.serial).filter (· < v.serial)).Sublist
    ((v.registrations m).map Registration.serial)

theorem View.Grows.refl (v : View) : v.Grows v :=
  ⟨Nat.le_refl _, fun _ => List.filter_sublist⟩

theorem View.Grows.trans {a b c : View} (hab : a.Grows b) (hbc : b.Grows c) : a.Grows c := by
  constructor
  · exact Nat.le_trans hab.serial hbc.serial
  · intro m
    have hserial := hab.serial
    have hfilter : ((c.registrations m).map Registration.serial).filter (· < a.serial) =
        (((c.registrations m).map Registration.serial).filter (· < b.serial)).filter
          (· < a.serial) := by
      rw [List.filter_filter]
      apply List.filter_congr
      intro r _
      by_cases hr : r < a.serial
      · have hr' : r < b.serial := by omega
        simp [hr, hr']
      · simp [hr]
    rw [hfilter]
    exact ((hbc.older m).filter _).trans (hab.older m)

/-- A registration made before `v` that is there later was there. -/
theorem View.Grows.mem {v v' : View} (h : v.Grows v') {m : ModuleId} {serial : Nat}
    (hold : serial < v.serial)
    (hmem : serial ∈ (v'.registrations m).map Registration.serial) :
    serial ∈ (v.registrations m).map Registration.serial := by
  apply (h.older m).subset
  rw [List.mem_filter]
  exact ⟨hmem, by simpa using hold⟩

theorem mem_enlist {modules : List ModuleId} {this m : ModuleId} :
    m ∈ Registry.enlist modules this ↔ m ∈ modules ∨ m = this := by
  unfold Registry.enlist
  split
  · constructor
    · exact Or.inl
    · rintro (h | rfl)
      · exact h
      · assumption
  · simp

theorem nodup_enlist {modules : List ModuleId} (h : modules.Nodup) (this : ModuleId) :
    (Registry.enlist modules this).Nodup := by
  unfold Registry.enlist
  split
  · exact h
  · rename_i hnot
    rw [List.nodup_append]
    refine ⟨h, by simp, ?_⟩
    intro m hm m' hm' heq
    rw [List.mem_singleton.mp hm'] at heq
    exact hnot (heq ▸ hm)

section
variable {v v' : View}

theorem View.Change.grows (h : v.Change v') : v.Grows v' := by
  cases h with
  | same hsubscribers hregistrations hserial =>
      refine ⟨hserial, fun m => ?_⟩
      rw [hregistrations]
      exact List.filter_sublist
  | subscribe this new hsubscribers hthis hother hone hnew hserial =>
      refine ⟨Nat.le_of_lt hserial, fun m => ?_⟩
      by_cases hm : m = this
      · subst hm
        have hnone : (new.map Registration.serial).filter (· < v.serial) = [] := by
          rw [List.filter_eq_nil_iff]
          intro serial hmem
          obtain ⟨r, hr, rfl⟩ := List.mem_map.mp hmem
          simp [hnew r hr]
        rw [hthis, List.map_append, List.filter_append, hnone, List.append_nil]
        exact List.filter_sublist
      · rw [hother m hm]
        exact List.filter_sublist
  | unsubscribe this keep hsubscribers hthis hother hserial =>
      refine ⟨hserial, fun m => ?_⟩
      by_cases hm : m = this
      · subst hm
        rw [hthis]
        exact List.filter_sublist.trans (List.filter_sublist.map _)
      · rw [hother m hm]
        exact List.filter_sublist

/-- A registration of the later view is an older one or the new one. -/
theorem View.Change.mem (h : v.Change v') {m : ModuleId} {r : Registration}
    (hr : r ∈ v'.registrations m) :
    r ∈ v.registrations m ∨ (r.serial = v.serial ∧ r.serial < v'.serial ∧
      m ∈ v'.subscribers ∧ ∀ m', m' ≠ m → v'.registrations m' = v.registrations m') := by
  cases h with
  | same hsubscribers hregistrations hserial =>
      rw [hregistrations] at hr
      exact Or.inl hr
  | subscribe this new hsubscribers hthis hother hone hnew hserial =>
      by_cases hm : m = this
      · subst hm
        rw [hthis, List.mem_append] at hr
        rcases hr with hr | hr
        · exact Or.inl hr
        · have hfresh := hnew r hr
          refine Or.inr ⟨hfresh, by omega, ?_, hother⟩
          rw [hsubscribers, mem_enlist]
          exact Or.inr rfl
      · rw [hother m hm] at hr
        exact Or.inl hr
  | unsubscribe this keep hsubscribers hthis hother hserial =>
      by_cases hm : m = this
      · subst hm
        rw [hthis] at hr
        exact Or.inl (List.mem_filter.mp hr).1
      · rw [hother m hm] at hr
        exact Or.inl hr

theorem View.Change.nodup (h : v.Change v') (hv : v.WellFormed) : v'.subscribers.Nodup := by
  cases h with
  | same hsubscribers hregistrations hserial =>
      rw [hsubscribers]
      exact hv.nodup
  | subscribe this new hsubscribers hthis hother hone hnew hserial =>
      rw [hsubscribers]
      exact nodup_enlist hv.nodup this
  | unsubscribe this keep hsubscribers hthis hother hserial =>
      rcases hsubscribers with heq | ⟨-, heq⟩
      · rw [heq]
        exact hv.nodup
      · rw [heq]
        exact hv.nodup.filter _

theorem View.Change.listed (h : v.Change v') (hv : v.WellFormed) {m : ModuleId}
    (hm : v'.registrations m ≠ []) : m ∈ v'.subscribers := by
  cases h with
  | same hsubscribers hregistrations hserial =>
      rw [hregistrations] at hm
      rw [hsubscribers]
      exact hv.listed m hm
  | subscribe this new hsubscribers hthis hother hone hnew hserial =>
      rw [hsubscribers, mem_enlist]
      by_cases hthis' : m = this
      · exact Or.inr hthis'
      · rw [hother m hthis'] at hm
        exact Or.inl (hv.listed m hm)
  | unsubscribe this keep hsubscribers hthis hother hserial =>
      have hlisted : m ∈ v.subscribers := by
        apply hv.listed
        by_cases hthis' : m = this
        · subst hthis'
          intro hnil
          rw [hthis, hnil] at hm
          exact hm rfl
        · rwa [hother m hthis'] at hm
      rcases hsubscribers with heq | ⟨hempty, heq⟩
      · rw [heq]
        exact hlisted
      · rw [heq, List.mem_filter]
        constructor
        · exact hlisted
        · rw [decide_eq_true_eq]
          rintro rfl
          exact hm hempty

theorem View.Change.distinct (h : v.Change v') (hv : v.WellFormed) (m : ModuleId) :
    ((v'.registrations m).map Registration.serial).Nodup := by
  cases h with
  | same hsubscribers hregistrations hserial =>
      rw [hregistrations]
      exact hv.distinct m
  | subscribe this new hsubscribers hthis hother hone hnew hserial =>
      by_cases hm : m = this
      · subst hm
        rw [hthis, List.map_append, List.nodup_append]
        refine ⟨hv.distinct m, ?_, ?_⟩
        · match new, hone with
          | [], _ => exact List.nodup_nil
          | [r], _ => exact List.nodup_singleton _
        · intro serial hserial' serial' hserial'' heq
          obtain ⟨r, hr, rfl⟩ := List.mem_map.mp hserial'
          obtain ⟨r', hr', rfl⟩ := List.mem_map.mp hserial''
          have hlt := hv.bound m r hr
          have hfresh := hnew r' hr'
          omega
      · rw [hother m hm]
        exact hv.distinct m
  | unsubscribe this keep hsubscribers hthis hother hserial =>
      by_cases hm : m = this
      · subst hm
        rw [hthis]
        exact (hv.distinct m).sublist (List.filter_sublist.map _)
      · rw [hother m hm]
        exact hv.distinct m

/-- The new registration is of one module, and newer than all others. -/
theorem View.Change.separate (h : v.Change v') (hv : v.WellFormed) {m m' : ModuleId}
    {r r' : Registration} (hr : r ∈ v'.registrations m) (hr' : r' ∈ v'.registrations m')
    (heq : r.serial = r'.serial) : m = m' := by
  rcases h.mem hr with hold | ⟨hfresh, -, -, hother⟩
  · rcases h.mem hr' with hold' | ⟨hfresh', -, -, hother'⟩
    · exact hv.separate m m' r r' hold hold' heq
    · have hlt := hv.bound m r hold
      omega
  · by_contra hne
    rw [hother m' (Ne.symm hne)] at hr'
    have hlt := hv.bound m' r' hr'
    omega

theorem View.Change.wellFormed (h : v.Change v') (hv : v.WellFormed) : v'.WellFormed := by
  constructor
  · exact h.nodup hv
  · intro m hm
    exact h.listed hv hm
  · intro m r hr
    rcases h.mem hr with hold | ⟨-, hlt, -⟩
    · exact Nat.lt_of_lt_of_le (hv.bound m r hold) h.grows.serial
    · exact hlt
  · exact h.distinct hv
  · intro m m' r r' hr hr' heq
    exact h.separate hv hr hr' heq

end

end LoginServer.Core
