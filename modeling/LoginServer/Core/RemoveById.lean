import LoginServer.Core.RegistryLedger
import LoginServer.Verified.SkippingLoop

/-!
# Removing an identifier everywhere

`removeAllConnectionsById` walks the modules of every event with a range-based
`for` and disconnects the identifier from each.  A module whose last identifier
goes is taken out of the vector in the middle of the loop, so the module after
it is passed over.

## Main results

* `removeEach_spec` — the modules the inner loop reaches.
* `removeOps_spec` — what is left after the outer loop.
* `removes_all_by_id_iff` — when nothing is left under the identifier.
-/

namespace LoginServer.Core

open LoginServer.Verified
open LoginServer.Verified.SkippingLoop

namespace Registry

/-- Nothing is left under the identifier, everything else is as it was, and no
event is kept without modules. -/
structure RemovesAllById (reg : Registry) (identifier : Identifier) (reg' : Registry) : Prop where
  gone : ∀ m event, reg'.identifiedCallback m event identifier = none
  others : ∀ m event i, i ≠ identifier →
    reg'.identifiedCallback m event i = reg.identifiedCallback m event i
  callbacks : ∀ m, (reg'.module m).eventCallbacks = (reg.module m).eventCallbacks
  modules : reg'.moduleEvents = reg.moduleEvents
  dropped : ∀ event, (∀ m i, reg'.identifiedCallback m event i = none) →
    event ∉ reg'.identifiedModuleEvents

/-- The identifier is the only one a module has for an event. -/
def OnlyById (reg : Registry) (event : EventName) (identifier : Identifier) (m : ModuleId) :
    Bool :=
  (reg.eventMap m event).keys = [identifier]

/-- No module with the identifier stands between one that has only this
identifier and another module. -/
def NoneSkipped (reg : Registry) (identifier : Identifier) : Prop :=
  ∀ event x y z, [x, y, z] <:+: reg.listedIdentified event →
    reg.OnlyById event identifier x = true → reg.identifiedCallback y event identifier = none

/-- The inner loop comes to the module. -/
def Reached (reg : Registry) (event : EventName) (identifier : Identifier) (m : ModuleId) : Prop :=
  m ∈ reg.listedIdentified event ∧
    m ∉ missed (reg.OnlyById event identifier) (reg.listedIdentified event)

instance (reg : Registry) (event : EventName) (identifier : Identifier) (m : ModuleId) :
    Decidable (reg.Reached event identifier m) :=
  inferInstanceAs (Decidable (_ ∧ _))

/-! ## One `disconnect` -/

section
variable (reg : Registry) (this : ModuleId) (event : EventName) (identifier : Identifier)

theorem lookup_disconnectIdentified {modules : List ModuleId}
    (h : reg.identifiedModuleEvents.lookup event = some modules) :
    (reg.disconnectIdentified this event identifier false).identifiedModuleEvents.lookup event =
      some (if reg.OnlyById event identifier this then modules.filter (· ≠ this)
        else modules) := by
  unfold disconnectIdentified OnlyById eventMap
  dsimp only
  split
  · rename_i hnone
    rw [hnone, h]
    rfl
  · rename_i eventMap heventMap
    rw [heventMap, Option.getD_some]
    split
    · rename_i hnone
      have hkeys : ¬ eventMap.keys = [identifier] := by
        intro hone
        apply AList.lookup_eq_none.mp hnone
        rw [AList.mem_keys, hone]
        exact List.mem_cons_self
      rw [decide_eq_false hkeys]
      exact h
    · rename_i r hr
      have hmem : identifier ∈ eventMap := AList.lookup_isSome.mp (by rw [hr]; rfl)
      have hkeep : ∀ modules, clear modules event false = modules :=
        fun _ => if_neg fun hboth => Bool.noConfusion hboth.1
      rw [hkeep, AList.lookup_insert, h, Option.getD_some]
      simp only [keys_erase_eq_nil_iff hmem, decide_eq_true_eq]

end

/-- What operations on the identified callbacks of one event leave alone. -/
structure SameElsewhere (event : EventName) (reg reg' : Registry) : Prop where
  callbacks : ∀ m, (reg'.module m).eventCallbacks = (reg.module m).eventCallbacks
  modules : reg'.moduleEvents = reg.moduleEvents
  lists : ∀ e, e ≠ event →
    reg'.identifiedModuleEvents.lookup e = reg.identifiedModuleEvents.lookup e

theorem IdentifiedStep.sameElsewhere {reg reg' : Registry} {this : ModuleId} {event : EventName}
    (h : IdentifiedStep reg reg' this event) : SameElsewhere event reg reg' where
  callbacks := by
    intro m
    by_cases hm : m = this
    · rw [hm, h.plainCallbacks]
    · rw [h.other m hm]
  modules := h.plainEvents
  lists := h.events

theorem SameElsewhere.trans {event : EventName} {a b c : Registry}
    (h : SameElsewhere event a b) (h' : SameElsewhere event b c) : SameElsewhere event a c where
  callbacks m := (h'.callbacks m).trans (h.callbacks m)
  modules := h'.modules.trans h.modules
  lists e he := (h'.lists e he).trans (h.lists e he)

/-! ## The inner loop -/

section
variable (event : EventName) (identifier : Identifier)

/-- The loop calls `disconnect` for every module it comes to. -/
theorem removeEach_eq_walk (left : Nat) : ∀ (i : Nat) (v : LiveVector ModuleId) (reg : Registry),
    removeEach event identifier left i v reg =
      (walk (fun m reg => reg.disconnectIdentified m event identifier false)
        (fun reg => reg.identifiedModuleEvents.lookup event) left i v reg).map
          (List.map fun m => Op.disconnectIdentified m event identifier false) := by
  induction left with
  | zero =>
      intro i v reg
      rfl
  | succ left ih =>
      intro i v reg
      rw [removeEach, walk]
      cases v.read i with
      | none => rfl
      | some m =>
          dsimp only [Option.bind_eq_bind, Option.bind_some]
          rw [ih, Op.apply]
          cases walk (fun m reg => Registry.disconnectIdentified reg m event identifier false)
            (fun reg => reg.identifiedModuleEvents.lookup event) left (i + 1) _ _ with
          | none => rfl
          | some visited => rfl

/-- The registry while the loop is under way. -/
structure Begun (reg₀ reg : Registry) : Prop where
  consistent : reg.Consistent
  maps : ∀ m, reg.eventMap m event = reg₀.eventMap m event ∨
    reg.eventMap m event = (reg₀.eventMap m event).erase identifier

variable {reg : Registry}

/-- A module that has only the identifier is taken out of the list, and when
the loop comes to it again it is not in the list any more. -/
theorem takesOut (reg₀ : Registry) :
    TakesOut (fun m reg => Registry.disconnectIdentified reg m event identifier false)
      (fun reg => reg.identifiedModuleEvents.lookup event) (reg₀.OnlyById event identifier)
      (Begun event identifier reg₀) where
  good := by
    intro this reg h
    refine ⟨consistent_disconnectIdentified this event identifier false h.consistent,
      fun m => ?_⟩
    rw [eventMap_disconnectIdentified]
    split
    · right
      rcases h.maps m with hmap | hmap
      · rw [hmap]
      · rw [hmap, erase_twice]
    · exact h.maps m
  vector := by
    intro this reg modules h hmodules
    rw [lookup_disconnectIdentified reg this event identifier hmodules]
    rcases h.maps this with hmap | hmap
    · rw [OnlyById, OnlyById, hmap]
    · have hnot : reg.OnlyById event identifier this = false := by
        rw [OnlyById, hmap, decide_eq_false_iff_not]
        intro hone
        have hmem : identifier ∈ ((reg₀.eventMap this event).erase identifier).keys := by
          rw [hone]
          exact List.mem_cons_self
        exact (AList.mem_erase.mp hmem).1 rfl
      rw [hnot]
      by_cases hone : reg₀.OnlyById event identifier this = true
      · rw [if_pos hone]
        have hkeys := of_decide_eq_true hone
        have hempty : (reg.eventMap this event).keys = [] := by
          rw [hmap, keys_erase_eq_nil_iff]
          · exact hkeys
          · rw [AList.mem_keys, hkeys]
            exact List.mem_cons_self
        have hnotListed : this ∉ modules := by
          intro hlisted
          have hlist : reg.listedIdentified event = modules := by
            rw [listedIdentified, hmodules]
            rfl
          have hhas := (h.consistent.identified.listed event this).mp (hlist ▸ hlisted)
          exact (hasIdentified_iff reg this event).mp hhas hempty
        refine congrArg some (List.filter_eq_self.mpr fun m hm => ?_).symm
        simpa using fun heq : m = this => hnotListed (heq ▸ hm)
      · rw [if_neg hone]
        rfl

theorem eventMap_applyAll (visited : List ModuleId) : ∀ (reg : Registry) (m : ModuleId)
    (e : EventName),
    (reg.applyAll (visited.map fun m =>
      Op.disconnectIdentified m event identifier false)).eventMap m e =
        if m ∈ visited ∧ e = event then (reg.eventMap m e).erase identifier
        else reg.eventMap m e := by
  induction visited with
  | nil =>
      intro reg m e
      rw [if_neg (fun hboth => List.not_mem_nil hboth.1)]
      rfl
  | cons x visited ih =>
      intro reg m e
      rw [List.map_cons, applyAll_cons, ih, Op.apply, eventMap_disconnectIdentified]
      by_cases he : e = event
      · by_cases hm : m = x
        · simp only [he, hm, and_self, if_true, List.mem_cons, true_or, erase_twice, ite_self]
        · simp only [he, hm, List.mem_cons, false_and, false_or, if_false]
      · simp only [he, and_false, if_false]

theorem sameElsewhere_applyAll (visited : List ModuleId) : ∀ reg : Registry,
    SameElsewhere event reg (reg.applyAll (visited.map fun m =>
      Op.disconnectIdentified m event identifier false)) := by
  induction visited with
  | nil => exact fun reg => ⟨fun _ => rfl, rfl, fun _ _ => rfl⟩
  | cons x visited ih =>
      intro reg
      have hstep := identifiedStep_disconnectIdentified reg x event identifier false
      exact hstep.sameElsewhere.trans (ih _)

/-- The inner loop disconnects the modules it reaches. -/
theorem removeEach_spec (h : reg.Consistent) {modules : List ModuleId}
    (hmodules : reg.identifiedModuleEvents.lookup event = some modules) :
    ∃ ops, removeEach event identifier modules.length 0 (.ofList modules 0) reg = some ops ∧
      SameElsewhere event reg (reg.applyAll ops) ∧
      ∀ m e, ((reg.applyAll ops).eventMap m e =
        if reg.Reached event identifier m ∧ e = event then (reg.eventMap m e).erase identifier
        else reg.eventMap m e) := by
  have hlist : reg.listedIdentified event = modules := by
    rw [listedIdentified, hmodules]
    rfl
  have hnodup : modules.Nodup := hlist ▸ h.identified.nodup event
  obtain ⟨visited, hwalk, hvisited⟩ := walk_spec (takesOut event identifier reg) hnodup
    ⟨h, fun m => Or.inl rfl⟩ hmodules 0
  refine ⟨visited.map _, ?_, sameElsewhere_applyAll event identifier visited reg, fun m e => ?_⟩
  · rw [removeEach_eq_walk, hwalk]
    rfl
  · rw [eventMap_applyAll]
    simp only [hvisited, Reached, hlist]

end

/-! ## The outer loop -/

/-- What is left after the loop has visited some events. -/
structure Removed (identifier : Identifier) (events : List EventName) (reg reg' : Registry) :
    Prop where
  maps : ∀ m e, reg'.eventMap m e =
    if e ∈ events ∧ reg.Reached e identifier m then (reg.eventMap m e).erase identifier
    else reg.eventMap m e
  callbacks : ∀ m, (reg'.module m).eventCallbacks = (reg.module m).eventCallbacks
  modules : reg'.moduleEvents = reg.moduleEvents
  lists : ∀ e, e ∉ events →
    reg'.identifiedModuleEvents.lookup e = reg.identifiedModuleEvents.lookup e
  dropped : ∀ e ∈ events, reg'.identifiedModuleEvents.lookup e ≠ some []

section
variable {identifier : Identifier} {reg reg' : Registry}

/-- The other events do not tell who is reached. -/
theorem reached_congr {event : EventName}
    (hlist : reg'.identifiedModuleEvents.lookup event = reg.identifiedModuleEvents.lookup event)
    (hmaps : ∀ m, reg'.eventMap m event = reg.eventMap m event) (m : ModuleId) :
    reg'.Reached event identifier m ↔ reg.Reached event identifier m := by
  have honly : reg'.OnlyById event identifier = reg.OnlyById event identifier := by
    funext x
    rw [OnlyById, OnlyById, hmaps]
  rw [Reached, Reached, listedIdentified, listedIdentified, honly, hlist]

theorem lookup_dropIdentifiedEvent (reg : Registry) (event : EventName) :
    (reg.dropIdentifiedEvent event).identifiedModuleEvents.lookup event ≠ some [] := by
  unfold dropIdentifiedEvent clear
  dsimp only
  split
  · rw [AList.lookup_erase]
    exact nofun
  · rename_i hkeep
    exact fun hnil => hkeep ⟨rfl, hnil⟩

/-- One event, after which its entry is dropped if its list is empty. -/
theorem removed_event (identifier : Identifier) (h : reg.Consistent) {event : EventName}
    (hevent : event ∈ reg.identifiedModuleEvents) :
    ∃ ops, removeEach event identifier
      ((reg.identifiedModuleEvents.lookup event).getD []).length 0
        (.ofList ((reg.identifiedModuleEvents.lookup event).getD []) 0) reg = some ops ∧
      Removed identifier [event] reg (reg.applyAll (ops ++ [.dropIdentifiedEvent event])) := by
  obtain ⟨modules, hmodules⟩ := Option.isSome_iff_exists.mp (AList.lookup_isSome.mpr hevent)
  obtain ⟨ops, hops, hsame, hmaps⟩ := removeEach_spec event identifier h hmodules
  rw [hmodules]
  refine ⟨ops, hops, ?_⟩
  have hlast : reg.applyAll (ops ++ [.dropIdentifiedEvent event]) =
      (reg.applyAll ops).dropIdentifiedEvent event := by
    rw [applyAll, List.foldl_append]
    rfl
  rw [hlast]
  constructor
  · intro m e
    refine (hmaps m e).trans ?_
    by_cases he : e = event
    · subst he
      simp
    · simp [he]
  · exact hsame.callbacks
  · exact hsame.modules
  · intro e he
    have hne : e ≠ event := fun heq => he (List.mem_singleton.mpr heq)
    exact (clear_lookup_ne event _ true hne).trans (hsame.lists e hne)
  · intro e he
    rw [List.mem_singleton.mp he]
    exact lookup_dropIdentifiedEvent _ event

theorem Removed.cons {event : EventName} {events : List EventName} {reg₁ : Registry}
    (hnot : event ∉ events) (hfirst : Removed identifier [event] reg reg₁)
    (hrest : Removed identifier events reg₁ reg') :
    Removed identifier (event :: events) reg reg' := by
  have hkept : ∀ e, e ≠ event → ∀ m, reg₁.eventMap m e = reg.eventMap m e := by
    intro e he m
    rw [hfirst.maps, if_neg (fun hboth => he (List.mem_singleton.mp hboth.1))]
  have hlists : ∀ e, e ≠ event →
      reg₁.identifiedModuleEvents.lookup e = reg.identifiedModuleEvents.lookup e :=
    fun e he => hfirst.lists e fun hin => he (List.mem_singleton.mp hin)
  constructor
  · intro m e
    rw [hrest.maps]
    by_cases he : e = event
    · subst he
      rw [if_neg (fun hboth => hnot hboth.1), hfirst.maps]
      simp
    · simp only [hkept e he, reached_congr (hlists e he) (hkept e he), List.mem_cons, he,
        false_or]
  · exact fun m => (hrest.callbacks m).trans (hfirst.callbacks m)
  · exact hrest.modules.trans hfirst.modules
  · intro e he
    rw [List.mem_cons, not_or] at he
    exact (hrest.lists e he.2).trans (hlists e he.1)
  · intro e he
    rcases List.mem_cons.mp he with rfl | he
    · rw [hrest.lists e hnot]
      exact hfirst.dropped e List.mem_cons_self
    · exact hrest.dropped e he

/-- No freed cell is read, and every event loses the identifier of the modules
its loop reaches. -/
theorem removeOps_spec (events : List EventName) (hnodup : events.Nodup) (h : reg.Consistent)
    (hevents : ∀ event ∈ events, event ∈ reg.identifiedModuleEvents) :
    ∃ ops, removeOps identifier events reg = some ops ∧
      Removed identifier events reg (reg.applyAll ops) := by
  induction events generalizing reg with
  | nil =>
      refine ⟨[], rfl, ?_, fun _ => rfl, rfl, fun _ _ => rfl, ?_⟩
      · intro m e
        rw [if_neg (fun hboth => List.not_mem_nil hboth.1)]
        rfl
      · exact fun e he => absurd he List.not_mem_nil
  | cons event events ih =>
      obtain ⟨hnot, hrest⟩ := List.nodup_cons.mp hnodup
      obtain ⟨ops, hops, hremoved⟩ := removed_event identifier h
        (hevents event List.mem_cons_self)
      obtain ⟨rest, hrestOps, hrestRemoved⟩ := ih hrest
        (applyAll_preserves (fun op _ => op.consistent) (ops ++ [.dropIdentifiedEvent event])
          reg h) (by
          intro e he
          have hne : e ∉ [event] := fun hin => hnot (List.mem_singleton.mp hin ▸ he)
          rw [← AList.lookup_isSome, hremoved.lists e hne]
          exact AList.lookup_isSome.mpr (hevents e (List.mem_cons_of_mem _ he)))
      refine ⟨ops ++ [.dropIdentifiedEvent event] ++ rest, ?_, ?_⟩
      · rw [removeOps]
        dsimp only [Option.bind_eq_bind]
        rw [hops, Option.bind_some]
        change (removeOps identifier events (reg.applyAll _)).bind _ = _
        rw [hrestOps]
        rfl
      · rw [applyAll_append]
        exact hremoved.cons hnot hrestRemoved

end

/-! ## What is left under the identifier -/

section
variable {identifier : Identifier} {reg reg' : Registry} {events : List EventName}

theorem Removed.identifiedCallback (h : Removed identifier events reg reg') (m : ModuleId)
    (event : EventName) (i : Identifier) :
    reg'.identifiedCallback m event i =
      if i = identifier ∧ event ∈ events ∧ reg.Reached event identifier m then none
      else reg.identifiedCallback m event i := by
  unfold Registry.identifiedCallback
  rw [h.maps]
  by_cases hreached : event ∈ events ∧ reg.Reached event identifier m
  · rw [if_pos hreached]
    by_cases hi : i = identifier
    · rw [if_pos ⟨hi, hreached⟩, hi, AList.lookup_erase]
    · rw [if_neg (fun hboth => hi hboth.1), AList.lookup_erase_ne hi]
  · rw [if_neg hreached, if_neg (fun hboth => hreached hboth.2)]

/-- The identifier is gone if the loops reach all who have it. -/
theorem Removed.gone_iff (h : Removed identifier events reg reg') (hreg : reg.Consistent)
    (hevents : events.Perm reg.identifiedModuleEvents.keys) :
    (∀ m event, reg'.identifiedCallback m event identifier = none) ↔
      ∀ event, ∀ m ∈ missed (reg.OnlyById event identifier) (reg.listedIdentified event),
        ¬ reg.identifiedCallback m event identifier ≠ none := by
  constructor
  · intro hgone event m hmissed
    have hm := hgone m event
    rw [h.identifiedCallback, if_neg (fun hall => hall.2.2.2 hmissed)] at hm
    exact not_not_intro hm
  · intro hmissed m event
    rw [h.identifiedCallback]
    split
    · rfl
    · rename_i hnot
      by_contra hsome
      have hlisted : m ∈ reg.listedIdentified event :=
        (hreg.identified.listed event m).mpr (hasIdentified_of_callback hsome)
      have hevent : event ∈ events := by
        rw [hevents.mem_iff, ← AList.mem_keys, ← AList.lookup_isSome, Option.isSome_iff_ne_none]
        intro hnone
        rw [listedIdentified, hnone] at hlisted
        cases hlisted
      apply hmissed event m _ hsome
      by_contra hreached
      exact hnot ⟨rfl, hevent, hlisted, hreached⟩

/-- Whatever the loops miss, they leave everything else alone and keep no
empty list. -/
theorem Removed.removesAllById_iff (h : Removed identifier events reg reg')
    (hreg' : reg'.Consistent) (hevents : events.Perm reg.identifiedModuleEvents.keys) :
    RemovesAllById reg identifier reg' ↔
      ∀ m event, reg'.identifiedCallback m event identifier = none := by
  refine ⟨fun hall => hall.gone, fun hgone => ⟨hgone, ?_, h.callbacks, h.modules, ?_⟩⟩
  · intro m event i hi
    rw [h.identifiedCallback, if_neg (fun hboth => hi hboth.1)]
  · intro event hnone hin
    by_cases hevent : event ∈ events
    · obtain ⟨modules, hmodules⟩ := Option.isSome_iff_exists.mp (AList.lookup_isSome.mpr hin)
      have hlist : reg'.listedIdentified event = modules := by
        rw [listedIdentified, hmodules]
        rfl
      apply h.dropped event hevent
      refine hmodules.trans (congrArg some (List.eq_nil_iff_forall_not_mem.mpr fun m hm => ?_))
      have hhas := (hreg'.identified.listed event m).mp (hlist ▸ hm)
      obtain ⟨i, hi⟩ := List.exists_mem_of_ne_nil _ ((hasIdentified_iff reg' m event).mp hhas)
      exact AList.lookup_eq_none.mp (hnone m i) hi
    · rw [← AList.lookup_isSome, h.lists event hevent, AList.lookup_isSome, AList.mem_keys,
        ← hevents.mem_iff] at hin
      exact hevent hin

end

end Registry

/-- `removeAllConnectionsById` reads no freed storage, and it removes all
connections with the identifier and nothing else if and only if no module with
the identifier comes behind one that has only this identifier for the event and
before another one. -/
theorem removes_all_by_id_iff (reg : Registry) (hreg : Reachable reg) (identifier : Identifier)
    (events : List EventName) (hevents : events.Perm reg.identifiedModuleEvents.keys) :
    ∃ ops, removeOps identifier events reg = some ops ∧
      (reg.RemovesAllById identifier (reg.applyAll ops) ↔ reg.NoneSkipped identifier) := by
  have hconsistent := hreg.consistent
  have hnodup : events.Nodup := hevents.nodup_iff.mpr (AList.keys_nodup _)
  obtain ⟨ops, hops, hremoved⟩ := Registry.removeOps_spec events hnodup hconsistent
    fun event hevent => AList.mem_keys.mpr (hevents.mem_iff.mp hevent)
  refine ⟨ops, hops, ?_⟩
  have hconsistent' := Registry.applyAll_preserves (fun op _ => op.consistent) ops reg hconsistent
  rw [hremoved.removesAllById_iff hconsistent' hevents, hremoved.gone_iff hconsistent hevents]
  unfold Registry.NoneSkipped
  refine forall_congr' fun event => ?_
  have hleaves : ∀ m, reg.OnlyById event identifier m = true →
      reg.identifiedCallback m event identifier ≠ none := by
    intro m honly
    rw [← Option.isSome_iff_ne_none, Registry.identifiedCallback, AList.lookup_isSome,
      AList.mem_keys, of_decide_eq_true honly]
    exact List.mem_cons_self
  rw [forall_missed_iff hleaves]
  simp only [not_not]

/-- Two modules, of which the first has only the identifier. -/
def twoConnected : Registry :=
  Registry.applyAll {} [.connect 0 [120] 7 [105], .connect 1 [120] 8 [105],
    .connect 1 [120] 9 [106]]

theorem removes_all_by_id_sample :
    ∃ ops, removeOps [105] [[120]] twoConnected = some ops ∧
      (twoConnected.RemovesAllById [105] (twoConnected.applyAll ops) ↔
        twoConnected.NoneSkipped [105]) :=
  removes_all_by_id_iff twoConnected ⟨_, rfl⟩ [105] [[120]] (by decide +kernel)

/-- Three modules that have only the identifier. -/
def threeConnected : Registry :=
  Registry.applyAll {} [.connect 0 [120] 7 [105], .connect 1 [120] 8 [105],
    .connect 2 [120] 9 [105]]

/-- The second of them keeps its callback. -/
theorem second_of_three_skipped :
    Reachable threeConnected ∧ [[120]].Perm threeConnected.identifiedModuleEvents.keys ∧
      ∃ ops, removeOps [105] [[120]] threeConnected = some ops ∧
        (threeConnected.applyAll ops).identifiedCallback 1 [120] [105] = some ⟨8, 1⟩ ∧
        ¬ threeConnected.RemovesAllById [105] (threeConnected.applyAll ops) := by
  have hruns : (removeOps [105] [[120]] threeConnected).map
      (fun ops => (threeConnected.applyAll ops).identifiedCallback 1 [120] [105]) =
        some (some ⟨8, 1⟩) := by
    decide +kernel
  obtain ⟨ops, hops, hkept⟩ := Option.map_eq_some_iff.mp hruns
  refine ⟨⟨_, rfl⟩, by decide +kernel, ops, hops, hkept, fun hall => ?_⟩
  have hgone := hall.gone 1 [120]
  rw [hkept] at hgone
  cases hgone

end LoginServer.Core
