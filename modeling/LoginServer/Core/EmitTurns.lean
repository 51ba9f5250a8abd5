import LoginServer.Core.Emit
import LoginServer.Core.RegistryChange

/-!
# An emit, turn by turn

What the loops of an emit are meant to do, on the registry alone: every
module of the list in turn, and every callback it has at that time.  `Quiet`
says that nothing is changed under the loops, and the results are that a
quiet emit does what is meant, and that this serves everybody once.

## Main results

* `turnsOf_batch` — the turns of one module.
* `turns_serve` — the turns serve every registration once.
-/

namespace LoginServer.Core

open LoginServer.Verified
open LoginServer.Verified.InOrderDelivery

section
variable (t : Topic) (behaviour : Behaviour)

def runOps (ops : List Op) (reg : Registry) : Registry :=
  ops.foldl (fun reg op => op.apply reg) reg

/-- The registry after the `k`-th invocation and its removal. -/
def afterTurn (m : ModuleId) (r : Registration) (k : Nat) (reg : Registry) : Registry :=
  (onceCheck t m r).apply (runOps (behaviour k).ops reg)

def afterCallbacks (m : ModuleId) : List Registration → Nat → Registry → Registry
  | [], _, reg => reg
  | r :: rs, k, reg => afterCallbacks m rs (k + 1) (afterTurn t behaviour m r k reg)

/-- The turns of the callbacks of a module. -/
def turnsOf (m : ModuleId) : List Registration → Nat → Registry → List (Turn Nat)
  | [], _, _ => []
  | r :: rs, k, reg =>
      ⟨r.serial, (reg.view t).snapshot⟩ ::
        turnsOf m rs (k + 1) (afterTurn t behaviour m r k reg)

/-- The loop over an event with identifier opens the map of the module. -/
def enter (m : ModuleId) (reg : Registry) : Registry :=
  if t.identifier.isEmpty then reg else reg.openEventMap m t.event

def afterModules : List ModuleId → Nat → Registry → Registry
  | [], _, reg => reg
  | m :: ms, k, reg =>
      let reg := enter t m reg
      let rs := reg.registrations t m
      afterModules ms (k + rs.length) (afterCallbacks t behaviour m rs k reg)

/-- The turns of a list of modules. -/
def turns : List ModuleId → Nat → Registry → List (Turn Nat)
  | [], _, _ => []
  | m :: ms, k, reg =>
      let reg := enter t m reg
      let rs := reg.registrations t m
      turnsOf t behaviour m rs k reg ++
        turns ms (k + rs.length) (afterCallbacks t behaviour m rs k reg)

/-! ## Nothing is changed under the loops -/

/-- The modules of the topic stay the same. -/
def KeepsModules (reg reg' : Registry) : Prop :=
  (reg'.view t).subscribers = (reg.view t).subscribers

/-- The callbacks of a module stay the same. -/
def KeepsCallbacks (m : ModuleId) (reg reg' : Registry) : Prop :=
  reg'.registrations t m = reg.registrations t m

/-- What a callback does leaves the list of modules alone, and unless it is
the last one also the list of the callbacks. -/
def QuietOps (m : ModuleId) (last : Bool) : List Op → Registry → Prop
  | [], _ => True
  | op :: ops, reg =>
      KeepsModules t reg (op.apply reg) ∧
        (last = false → KeepsCallbacks t m reg (op.apply reg)) ∧
        QuietOps m last ops (op.apply reg)

/-- A turn is quiet; its removal may change a list the loop is done with. -/
def QuietTurn (lastModule last : Bool) (m : ModuleId) (r : Registration) (k : Nat)
    (reg : Registry) : Prop :=
  QuietOps t m last (behaviour k).ops reg ∧
    ((lastModule && last) = false →
      KeepsModules t (runOps (behaviour k).ops reg) (afterTurn t behaviour m r k reg)) ∧
    (last = false →
      KeepsCallbacks t m (runOps (behaviour k).ops reg) (afterTurn t behaviour m r k reg))

def QuietCallbacks (lastModule : Bool) (m : ModuleId) :
    List Registration → Nat → Registry → Prop
  | [], _, _ => True
  | r :: rs, k, reg =>
      QuietTurn t behaviour lastModule rs.isEmpty m r k reg ∧
        QuietCallbacks lastModule m rs (k + 1) (afterTurn t behaviour m r k reg)

/-- The number of the callback that was called last. -/
def lastCallback (rs : List Registration) (callback : Int) : Int :=
  (rs.getLast?.map Registration.callback).getD callback

/-- With an identifier, no callback may have the number of the one before. -/
def QuietModules : List ModuleId → Nat → Int → Registry → Prop
  | [], _, _, _ => True
  | m :: ms, k, callback, reg =>
      let reg := enter t m reg
      let rs := reg.registrations t m
      (t.identifier.isEmpty = false → ∀ r ∈ rs, r.callback ≠ callback) ∧
        QuietCallbacks t behaviour ms.isEmpty m rs k reg ∧
        QuietModules ms (k + rs.length) (lastCallback rs callback)
          (afterCallbacks t behaviour m rs k reg)

/-- The registry when the loop over the modules starts. -/
def atStart (reg : Registry) : Registry :=
  if t.identifier.isEmpty then reg else reg.openIdentifiedEvent t.event

/-- No turn of the emit changes a list that is being walked. -/
def Quiet (reg : Registry) : Prop :=
  QuietModules t behaviour (reg.view t).subscribers 0 0 (atStart t reg)

instance (reg reg' : Registry) : Decidable (KeepsModules t reg reg') :=
  inferInstanceAs (Decidable (_ = _))

instance (m : ModuleId) (reg reg' : Registry) : Decidable (KeepsCallbacks t m reg reg') :=
  inferInstanceAs (Decidable (_ = _))

instance decidableQuietOps (m : ModuleId) (last : Bool) :
    (ops : List Op) → (reg : Registry) → Decidable (QuietOps t m last ops reg)
  | [], _ => isTrue trivial
  | op :: ops, reg =>
      have := decidableQuietOps m last ops (op.apply reg)
      inferInstanceAs (Decidable (_ ∧ _ ∧ _))

instance (lastModule last : Bool) (m : ModuleId) (r : Registration) (k : Nat)
    (reg : Registry) : Decidable (QuietTurn t behaviour lastModule last m r k reg) :=
  inferInstanceAs (Decidable (_ ∧ _ ∧ _))

instance decidableQuietCallbacks (lastModule : Bool) (m : ModuleId) :
    (rs : List Registration) → (k : Nat) → (reg : Registry) →
      Decidable (QuietCallbacks t behaviour lastModule m rs k reg)
  | [], _, _ => isTrue trivial
  | r :: rs, k, reg =>
      have := decidableQuietCallbacks lastModule m rs (k + 1) (afterTurn t behaviour m r k reg)
      inferInstanceAs (Decidable (_ ∧ _))

instance decidableQuietModules :
    (ms : List ModuleId) → (k : Nat) → (callback : Int) → (reg : Registry) →
      Decidable (QuietModules t behaviour ms k callback reg)
  | [], _, _, _ => isTrue trivial
  | m :: ms, k, callback, reg =>
      have := decidableQuietModules ms (k + ((enter t m reg).registrations t m).length)
        (lastCallback ((enter t m reg).registrations t m) callback)
        (afterCallbacks t behaviour m ((enter t m reg).registrations t m) k (enter t m reg))
      inferInstanceAs (Decidable (_ ∧ _ ∧ _))

instance (reg : Registry) : Decidable (Quiet t behaviour reg) :=
  inferInstanceAs (Decidable (QuietModules _ _ _ _ _ _))

end

/-! ## The turns serve everybody once -/

section
variable {t : Topic} {behaviour : Behaviour}

theorem mem_snapshot {v : View} {serial : Nat} :
    serial ∈ v.snapshot ↔
      ∃ m ∈ v.subscribers, serial ∈ (v.registrations m).map Registration.serial :=
  List.mem_flatMap

/-- A registration that was gone is not there later. -/
theorem View.Grows.snapshot {v v' : View} (h : v.Grows v') (hv : v.WellFormed) {serial : Nat}
    (hold : serial < v.serial) (hmem : serial ∈ v'.snapshot) : serial ∈ v.snapshot := by
  obtain ⟨m, -, hm⟩ := mem_snapshot.mp hmem
  have hin := h.mem hold hm
  refine mem_snapshot.mpr ⟨m, ?_, hin⟩
  apply hv.listed
  intro hnil
  rw [hnil] at hin
  exact absurd hin List.not_mem_nil

theorem View.WellFormed.lt {v : View} (h : v.WellFormed) {serial : Nat}
    (hmem : serial ∈ v.snapshot) : serial < v.serial := by
  obtain ⟨m, -, hm⟩ := mem_snapshot.mp hmem
  obtain ⟨r, hr, rfl⟩ := List.mem_map.mp hm
  exact h.bound m r hr

theorem View.WellFormed.nodup_snapshot {v : View} (h : v.WellFormed) : v.snapshot.Nodup := by
  rw [View.snapshot, List.nodup_flatMap]
  refine ⟨fun m _ => h.distinct m, ?_⟩
  apply h.nodup.imp
  intro m m' hne serial hm hm'
  obtain ⟨r, hr, rfl⟩ := List.mem_map.mp hm
  obtain ⟨r', hr', heq⟩ := List.mem_map.mp hm'
  exact hne (h.separate m m' r r' hr hr' heq.symm)

/-- What the views of two registries have to do with each other when some
operations lead from the first to the second. -/
structure Later (t : Topic) (reg reg' : Registry) : Prop where
  grows : (reg.view t).Grows (reg'.view t)
  wellFormed : (reg.view t).WellFormed → (reg'.view t).WellFormed

theorem Later.refl (reg : Registry) : Later t reg reg := ⟨.refl _, id⟩

theorem Later.trans {a b c : Registry} (hab : Later t a b) (hbc : Later t b c) : Later t a c :=
  ⟨hab.grows.trans hbc.grows, fun h => hbc.wellFormed (hab.wellFormed h)⟩

theorem later_apply (op : Op) (reg : Registry) : Later t reg (op.apply reg) :=
  ⟨(op.change reg t).grows, (op.change reg t).wellFormed⟩

theorem later_runOps (ops : List Op) (reg : Registry) : Later t reg (runOps ops reg) := by
  induction ops generalizing reg with
  | nil => exact .refl reg
  | cons op ops ih => exact (later_apply op reg).trans (ih (op.apply reg))

theorem later_afterTurn (m : ModuleId) (r : Registration) (k : Nat) (reg : Registry) :
    Later t reg (afterTurn t behaviour m r k reg) :=
  (later_runOps _ reg).trans (later_apply _ _)

theorem later_enter (m : ModuleId) (reg : Registry) : Later t reg (enter t m reg) := by
  unfold enter
  split
  · exact .refl reg
  · exact later_apply (.openEventMap m t.event) reg

theorem later_afterCallbacks (m : ModuleId) (rs : List Registration) (k : Nat)
    (reg : Registry) : Later t reg (afterCallbacks t behaviour m rs k reg) := by
  induction rs generalizing k reg with
  | nil => exact .refl reg
  | cons r rs ih => exact (later_afterTurn m r k reg).trans (ih (k + 1) _)

theorem map_id_turnsOf (m : ModuleId) (rs : List Registration) (k : Nat) (reg : Registry) :
    (turnsOf t behaviour m rs k reg).map Turn.id = rs.map Registration.serial := by
  induction rs generalizing k reg with
  | nil => rfl
  | cons r rs ih =>
      rw [turnsOf, List.map_cons, List.map_cons, ih]

theorem length_turnsOf (m : ModuleId) (rs : List Registration) (k : Nat) (reg : Registry) :
    (turnsOf t behaviour m rs k reg).length = rs.length := by
  rw [← List.length_map (f := Turn.id), map_id_turnsOf, List.length_map]

/-- Everybody who is served is there, and was looked up later. -/
theorem present_turnsOf {lastModule : Bool} {m : ModuleId} {rs : List Registration} {k : Nat}
    {reg : Registry} (hwf : (reg.view t).WellFormed)
    (hin : ∀ r ∈ rs, r ∈ reg.registrations t m)
    (hquiet : QuietCallbacks t behaviour lastModule m rs k reg) :
    ∀ e ∈ turnsOf t behaviour m rs k reg,
      e.id ∈ e.present ∧ ∃ reg', Later t reg reg' ∧ e.present = (reg'.view t).snapshot := by
  induction rs generalizing k reg with
  | nil =>
      intro e he
      exact absurd he List.not_mem_nil
  | cons r rs ih =>
      intro e he
      rcases List.mem_cons.mp he with rfl | he
      · refine ⟨?_, reg, .refl reg, rfl⟩
        have hr := hin r (by simp)
        refine mem_snapshot.mpr ⟨m, ?_, List.mem_map_of_mem hr⟩
        apply hwf.listed
        exact List.ne_nil_of_mem hr
      · have hlater : Later t reg (afterTurn t behaviour m r k reg) := later_afterTurn m r k reg
        have hrest : ∀ r' ∈ rs, r' ∈ (afterTurn t behaviour m r k reg).registrations t m := by
          intro r' hr'
          have hlast : rs.isEmpty = false := by
            cases rs with
            | nil => exact absurd hr' List.not_mem_nil
            | cons _ _ => rfl
          have hkeep : ∀ (ops : List Op) (reg : Registry), QuietOps t m false ops reg →
              (runOps ops reg).registrations t m = reg.registrations t m := by
            intro ops
            induction ops with
            | nil =>
                intro reg _
                rfl
            | cons op ops ih =>
                intro reg hops
                exact (ih _ hops.2.2).trans (hops.2.1 rfl)
          obtain ⟨hops, -, honce⟩ := hquiet.1
          rw [hlast] at hops
          rw [honce hlast, hkeep _ _ hops]
          exact hin r' (by simp [hr'])
        obtain ⟨hmem, reg', hreg', hpresent⟩ :=
          ih (hlater.wellFormed hwf) hrest hquiet.2 e he
        exact ⟨hmem, reg', hlater.trans hreg', hpresent⟩

/-- Who is there later and was there at the start is there now. -/
theorem Later.now {v : View} (hv : v.WellFormed) {reg reg' : Registry}
    (hlater : Later t reg reg') (hgrows : v.Grows (reg.view t))
    (hwf : (reg.view t).WellFormed) {r : Nat} (hr : r ∈ v.snapshot)
    (hmem : r ∈ (reg'.view t).snapshot) : r ∈ (reg.view t).snapshot :=
  hlater.grows.snapshot hwf (Nat.lt_of_lt_of_le (hv.lt hr) hgrows.serial) hmem

/-- Who was of a module at the start and is there now is of that module. -/
theorem of_module_now {v : View} (hv : v.WellFormed) {reg : Registry}
    (hgrows : v.Grows (reg.view t)) {m : ModuleId} {r : Nat} (hsnapshot : r ∈ v.snapshot)
    (hr : r ∈ (v.registrations m).map Registration.serial)
    (hmem : r ∈ (reg.view t).snapshot) :
    r ∈ (reg.registrations t m).map Registration.serial := by
  obtain ⟨m', -, hm'⟩ := mem_snapshot.mp hmem
  have hbefore := hgrows.mem (hv.lt hsnapshot) hm'
  obtain ⟨x, hx, hxr⟩ := List.mem_map.mp hr
  obtain ⟨x', hx', hxr'⟩ := List.mem_map.mp hbefore
  have heq := hv.separate m m' x x' hx hx' (hxr.trans hxr'.symm)
  rw [heq]
  exact hm'

theorem mem_snapshot_of_module {v : View} {m : ModuleId} (hm : m ∈ v.subscribers) {r : Nat}
    (hr : r ∈ (v.registrations m).map Registration.serial) : r ∈ v.snapshot :=
  mem_snapshot.mpr ⟨m, hm, hr⟩

/-- The turns of one module are a batch. -/
theorem turnsOf_batch {v : View} (hv : v.WellFormed) {m : ModuleId} (hm : m ∈ v.subscribers)
    {lastModule : Bool} {k : Nat} {reg : Registry} (hgrows : v.Grows (reg.view t))
    (hwf : (reg.view t).WellFormed)
    (hquiet : QuietCallbacks t behaviour lastModule m (reg.registrations t m) k reg)
    {gone future : List Nat}
    (hgone : ∀ r ∈ gone, r ∈ v.snapshot ∧ r ∉ (reg.view t).snapshot)
    (hnodup :
      (gone ++ ((v.registrations m).map Registration.serial ++ future)).Nodup) :
    Batch v.snapshot gone ((v.registrations m).map Registration.serial) future
      (turnsOf t behaviour m (reg.registrations t m) k reg) := by
  have hpresent := present_turnsOf hwf (fun r hr => hr) hquiet
  have hids : (turnsOf t behaviour m (reg.registrations t m) k reg).map Turn.id =
      (reg.registrations t m).map Registration.serial := map_id_turnsOf m _ k reg
  constructor
  · intro r hr
    exact mem_snapshot_of_module hm hr
  · rw [hids]
    apply List.Sublist.trans _ (hgrows.older m)
    apply List.monotone_filter_right
    intro r hr
    rw [decide_eq_true_eq] at hr ⊢
    exact hv.lt hr
  · exact hnodup
  · intro e he r hr hmem
    obtain ⟨-, reg', hlater, heq⟩ := hpresent e he
    rw [heq] at hmem
    exact (hgone r hr).2 (hlater.now hv hgrows hwf (hgone r hr).1 hmem)
  · intro e he r hr hnot hmem
    obtain ⟨-, reg', hlater, heq⟩ := hpresent e he
    rw [heq] at hmem
    rw [hids] at hnot
    have hsnapshot := mem_snapshot_of_module hm hr
    exact hnot (of_module_now hv hgrows hsnapshot hr (hlater.now hv hgrows hwf hsnapshot hmem))
  · intro e he
    exact (hpresent e he).1

/-- The turns of some modules serve what is pending of them. -/
theorem turns_serve {v : View} (hv : v.WellFormed) {ms : List ModuleId}
    (hms : ∀ m ∈ ms, m ∈ v.subscribers) {k : Nat} {callback : Int} {reg : Registry}
    (hgrows : v.Grows (reg.view t)) (hwf : (reg.view t).WellFormed)
    (hquiet : QuietModules t behaviour ms k callback reg) {gone : List Nat}
    (hgone : ∀ r ∈ gone, r ∈ v.snapshot ∧ r ∉ (reg.view t).snapshot)
    (hnodup :
      (gone ++ ms.flatMap fun m => (v.registrations m).map Registration.serial).Nodup) :
    ∃ rest, (turns t behaviour ms k reg).foldlM (serve v.snapshot)
        (gone ++ ms.flatMap fun m => (v.registrations m).map Registration.serial) = some rest ∧
      ∀ r ∈ rest, r ∉ ((afterModules t behaviour ms k reg).view t).snapshot := by
  induction ms generalizing k callback reg gone with
  | nil =>
      refine ⟨gone, ?_, fun r hr => (hgone r hr).2⟩
      rw [List.flatMap_nil, List.append_nil]
      rfl
  | cons m ms ih =>
      obtain ⟨-, hcallbacks, hmodules⟩ := hquiet
      have hm : m ∈ v.subscribers := hms m List.mem_cons_self
      have henter : Later t reg (enter t m reg) := later_enter m reg
      have hgrows₁ := hgrows.trans henter.grows
      have hwf₁ := henter.wellFormed hwf
      have hgone₁ :
          ∀ r ∈ gone, r ∈ v.snapshot ∧ r ∉ ((enter t m reg).view t).snapshot := by
        intro r hr
        constructor
        · exact (hgone r hr).1
        · intro hmem
          exact (hgone r hr).2 (henter.now hv hgrows hwf (hgone r hr).1 hmem)
      rw [turns, afterModules]
      generalize enter t m reg = reg₁ at henter hgrows₁ hwf₁ hgone₁ hcallbacks hmodules ⊢
      rw [List.flatMap_cons] at hnodup ⊢
      obtain ⟨gone', hrun, hnodup', hgone'⟩ :=
        serve_batch (turnsOf_batch hv hm hgrows₁ hwf₁ hcallbacks hgone₁ hnodup)
      have hafter : Later t reg₁
          (afterCallbacks t behaviour m (reg₁.registrations t m) k reg₁) :=
        later_afterCallbacks m _ k reg₁
      have hleft : ∀ r ∈ gone', r ∈ v.snapshot ∧
          r ∉ ((afterCallbacks t behaviour m (reg₁.registrations t m) k
            reg₁).view t).snapshot := by
        intro r hr
        rcases hgone' r hr with h | ⟨h, hnot⟩
        · constructor
          · exact (hgone r h).1
          · intro hmem
            exact (hgone₁ r h).2 (hafter.now hv hgrows₁ hwf₁ (hgone r h).1 hmem)
        · have hsnapshot := mem_snapshot_of_module hm h
          constructor
          · exact hsnapshot
          · intro hmem
            rw [map_id_turnsOf] at hnot
            exact hnot (of_module_now hv hgrows₁ hsnapshot h
              (hafter.now hv hgrows₁ hwf₁ hsnapshot hmem))
      obtain ⟨rest, hrest, hrest'⟩ := ih (fun m' hm' => hms m' (List.mem_cons_of_mem m hm'))
        (hgrows₁.trans hafter.grows) (hafter.wellFormed hwf₁) hmodules hleft hnodup'
      refine ⟨rest, ?_, hrest'⟩
      rw [List.foldlM_append, hrun]
      exact hrest

end

end LoginServer.Core
