import LoginServer.Core.RegistryChange
import LoginServer.Verified.ReverseIndex

/-!
# The manager and its modules agree

`m_moduleEvents` of the manager lists the modules with a callback for an
event, and the callbacks are in `m_eventCallbacks` of each module; with
identifiers there is a second such pair.  Seven operations update both sides
of a pair separately, create entries on the way and drop some of them again.

## Main results

* `PlainStep.consistent`, `IdentifiedStep.consistent` — one event and one
  module change.
* `Op.consistent` — every operation keeps the two sides in step.
* `eventMap_disconnectIdentified` — what one `disconnect` takes out of a map.
-/

namespace LoginServer.Core

open LoginServer.Verified.ReverseIndex

namespace Registry

/-- `m_moduleEvents[event]`, empty where there is none. -/
def listed (reg : Registry) (event : EventName) : List ModuleId :=
  (reg.moduleEvents.lookup event).getD []

/-- `m_identifiedModuleEvents[event]`. -/
def listedIdentified (reg : Registry) (event : EventName) : List ModuleId :=
  (reg.identifiedModuleEvents.lookup event).getD []

/-- The module's `m_eventCallbacks[event]` exists and is not empty. -/
def HasCallbacks (reg : Registry) (m : ModuleId) (event : EventName) : Prop :=
  ∃ callbacks, (reg.module m).eventCallbacks.lookup event = some callbacks ∧ callbacks ≠ []

/-- The module's `m_identifiedEventCallbacks[event]` exists and is not empty. -/
def HasIdentified (reg : Registry) (m : ModuleId) (event : EventName) : Prop :=
  ∃ eventMap, (reg.module m).identifiedEventCallbacks.lookup event = some eventMap ∧
    eventMap.keys ≠ []

/-- Each module is listed for an event once if it has callbacks there, and not
otherwise; and an identifier has one callback at most. -/
structure Consistent (reg : Registry) : Prop where
  plain : Mirrors reg.listed reg.HasCallbacks
  identified : Mirrors reg.listedIdentified reg.HasIdentified
  single : ∀ m t, ¬ t.identifier.isEmpty = true → (reg.registrations t m).length ≤ 1

theorem length_registrations_le (reg : Registry) (m : ModuleId) (t : Topic)
    (h : ¬ t.identifier.isEmpty = true) : (reg.registrations t m).length ≤ 1 := by
  rw [registrations, Module.registrations, if_neg h]
  exact Option.length_toList_le

theorem consistent_empty : Consistent {} := by
  constructor
  · constructor
    · exact fun _ => List.nodup_nil
    · intro e m
      constructor
      · exact fun h => absurd h List.not_mem_nil
      · rintro ⟨callbacks, hlookup, -⟩
        cases hlookup
  · constructor
    · exact fun _ => List.nodup_nil
    · intro e m
      constructor
      · exact fun h => absurd h List.not_mem_nil
      · rintro ⟨eventMap, hlookup, -⟩
        cases hlookup
  · exact length_registrations_le {}

/-! ## One event and one module -/

section
variable {reg reg' : Registry} {this : ModuleId} {event : EventName}

/-- What may happen to the list of an event and to one module. -/
def Follows (index index' : List ModuleId) (this : ModuleId) (has has' : Prop) : Prop :=
  (index' = enlist index this ∧ has') ∨ (index' = index.filter (· ≠ this) ∧ ¬ has') ∨
    (index' = index ∧ (has' ↔ has))

theorem Follows.mirrors {index index' : EventName → List ModuleId}
    {has has' : ModuleId → EventName → Prop} (hmirrors : Mirrors index has)
    (hindex : ∀ e, e ≠ event → index' e = index e)
    (hhas : ∀ m e, ¬ (m = this ∧ e = event) → (has' m e ↔ has m e))
    (h : Follows (index event) (index' event) this (has this event) (has' this event)) :
    Mirrors index' has' := by
  rcases h with ⟨hkey, howner⟩ | ⟨hkey, howner⟩ | ⟨hkey, howner⟩
  · exact hmirrors.enlist event this hkey hindex howner hhas
  · exact hmirrors.delist event this hkey hindex howner hhas
  · apply hmirrors.congr
    · intro e
      by_cases he : e = event
      · rw [he, hkey]
      · exact hindex e he
    · intro m e
      by_cases hboth : m = this ∧ e = event
      · rw [hboth.1, hboth.2]
        exact howner
      · exact hhas m e hboth

theorem PlainStep.consistent (h : PlainStep reg reg' this event) (hreg : reg.Consistent)
    (hfollows : Follows (reg.listed event) (reg'.listed event) this
      (reg.HasCallbacks this event) (reg'.HasCallbacks this event)) : reg'.Consistent := by
  constructor
  · apply Follows.mirrors hreg.plain _ _ hfollows
    · intro e he
      rw [listed, listed, h.events e he]
    · intro m e hne
      unfold HasCallbacks
      by_cases hm : m = this
      · rw [hm, h.callbacks e (fun he => hne ⟨hm, he⟩)]
      · rw [h.other m hm]
  · apply hreg.identified.congr
    · intro e
      rw [listedIdentified, listedIdentified, h.identifiedEvents]
    · intro m e
      unfold HasIdentified
      by_cases hm : m = this
      · rw [hm, h.identifiedCallbacks]
      · rw [h.other m hm]
  · exact length_registrations_le reg'

theorem IdentifiedStep.consistent (h : IdentifiedStep reg reg' this event)
    (hreg : reg.Consistent)
    (hfollows : Follows (reg.listedIdentified event) (reg'.listedIdentified event) this
      (reg.HasIdentified this event) (reg'.HasIdentified this event)) : reg'.Consistent := by
  constructor
  · apply hreg.plain.congr
    · intro e
      rw [listed, listed, h.plainEvents]
    · intro m e
      unfold HasCallbacks
      by_cases hm : m = this
      · rw [hm, h.plainCallbacks]
      · rw [h.other m hm]
  · apply Follows.mirrors hreg.identified _ _ hfollows
    · intro e he
      rw [listedIdentified, listedIdentified, h.events e he]
    · intro m e hne
      unfold HasIdentified
      by_cases hm : m = this
      · rw [hm, h.callbacks e (fun he => hne ⟨hm, he⟩)]
      · rw [h.other m hm]
  · exact length_registrations_le reg'

end

/-! ## The operations -/

section
variable {reg : Registry} (this : ModuleId) (event : EventName)

theorem setModule_this (m : Module) : (reg.setModule this m).module this = m :=
  if_pos rfl

theorem consistent_openEventMap (h : reg.Consistent) :
    (reg.openEventMap this event).Consistent := by
  have hstep : IdentifiedStep reg (reg.openEventMap this event) this event := by
    refine ⟨Nat.le_refl _, fun i hi => if_neg hi, fun e he => ?_, fun _ _ => rfl, ?_, rfl⟩
    · rw [openEventMap, setModule_this]
      exact AList.lookup_insert_ne he
    · rw [openEventMap, setModule_this]
  apply hstep.consistent h
  refine Or.inr (Or.inr ⟨rfl, ?_⟩)
  unfold HasIdentified
  rw [openEventMap, setModule_this, AList.lookup_insert]
  cases hlookup : (reg.module this).identifiedEventCallbacks.lookup event with
  | none => simp
  | some eventMap => simp

theorem consistent_connect (callback : Int) (identifier : Identifier) (h : reg.Consistent) :
    (reg.connect this event callback identifier).2.Consistent := by
  by_cases hplain : identifier.isEmpty = true
  · apply (plainStep_connect reg this event callback hplain).consistent h
    rw [connect, if_pos hplain]
    left
    constructor
    · unfold listed
      dsimp only
      rw [AList.lookup_insert]
      rfl
    · refine ⟨((reg.module this).eventCallbacks.lookup event).getD [] ++
        [⟨callback, reg.serial⟩], ?_, ?_⟩
      · show (Module.eventCallbacks (if this = this then _ else _)).lookup event = _
        rw [if_pos rfl]
        exact AList.lookup_insert _
      · exact List.append_ne_nil_of_right_ne_nil _ (List.cons_ne_nil _ _)
  · have hstep := identifiedStep_connect reg this event callback hplain
    rw [connect, if_neg hplain] at hstep ⊢
    dsimp only at hstep ⊢
    split at hstep
    · rename_i hused
      rw [if_pos hused]
      exact consistent_openEventMap this event h
    · rename_i hfree
      rw [if_neg hfree]
      apply hstep.consistent h
      left
      constructor
      · unfold listedIdentified
        dsimp only
        rw [AList.lookup_insert]
        rfl
      · refine ⟨(((reg.module this).identifiedEventCallbacks.lookup event).getD ∅).insert
          identifier ⟨callback, reg.serial⟩, ?_, ?_⟩
        · show (Module.identifiedEventCallbacks (if this = this then _ else _)).lookup event = _
          rw [if_pos rfl]
          exact AList.lookup_insert _
        · rw [AList.keys_insert]
          exact List.cons_ne_nil _ _

/-- A list of callbacks is dropped when the last of it is taken out. -/
theorem consistent_disconnect (callback : Int) (clearList : Bool) (h : reg.Consistent) :
    (reg.disconnect this event callback clearList).Consistent := by
  have hstep := plainStep_disconnect reg this event callback clearList
  unfold disconnect at hstep ⊢
  dsimp only at hstep ⊢
  apply hstep.consistent h
  clear hstep
  unfold listed HasCallbacks
  rw [clear_getD]
  split
  · exact Or.inr (Or.inr ⟨rfl, Iff.rfl⟩)
  · rename_i callbacks hcallbacks
    split
    · refine Or.inr (Or.inl ⟨?_, ?_⟩)
      · rw [AList.lookup_insert]
        rfl
      · rintro ⟨left, hleft, -⟩
        change (Module.eventCallbacks (if this = this then _ else _)).lookup event = _ at hleft
        rw [if_pos rfl, AList.lookup_erase] at hleft
        cases hleft
    · rename_i hleft
      refine Or.inr (Or.inr ⟨rfl, ?_⟩)
      rw [setModule_this, AList.lookup_insert, hcallbacks]
      constructor
      · rintro -
        refine ⟨callbacks, rfl, ?_⟩
        rintro rfl
        exact hleft rfl
      · rintro -
        exact ⟨_, rfl, fun hnil => hleft (List.isEmpty_iff.mpr hnil)⟩

theorem consistent_disconnectIdentified (identifier : Identifier) (clearList : Bool)
    (h : reg.Consistent) :
    (reg.disconnectIdentified this event identifier clearList).Consistent := by
  have hstep := identifiedStep_disconnectIdentified reg this event identifier clearList
  unfold disconnectIdentified at hstep ⊢
  dsimp only at hstep ⊢
  split at hstep
  · exact h
  rename_i eventMap heventMap
  apply hstep.consistent h
  clear hstep
  unfold listedIdentified HasIdentified
  rw [clear_getD]
  split
  · exact Or.inr (Or.inr ⟨rfl, Iff.rfl⟩)
  · rename_i registration hregistration
    have hkeys : eventMap.keys ≠ [] := by
      have hmem : identifier ∈ eventMap :=
        AList.lookup_isSome.mp (by rw [hregistration]; rfl)
      exact List.ne_nil_of_mem (AList.mem_keys.mp hmem)
    rw [AList.lookup_insert, setModule_this, AList.lookup_insert]
    split
    · rename_i hlast
      refine Or.inr (Or.inl ⟨rfl, ?_⟩)
      rintro ⟨left, hleft, hne⟩
      rw [← Option.some.inj hleft] at hne
      exact hne hlast
    · rename_i hmore
      refine Or.inr (Or.inr ⟨rfl, ?_⟩)
      rw [heventMap]
      exact iff_of_true ⟨_, rfl, hmore⟩ ⟨_, rfl, hkeys⟩

/-- The marks `connectOnce` leaves are in neither pair. -/
theorem consistent_marks (h : reg.Consistent) {m : Module}
    (hplain : m.eventCallbacks = (reg.module this).eventCallbacks)
    (hidentified :
      m.identifiedEventCallbacks = (reg.module this).identifiedEventCallbacks) :
    (reg.setModule this m).Consistent := by
  constructor
  · apply h.plain.congr fun _ => rfl
    intro i e
    unfold HasCallbacks
    by_cases hi : i = this
    · rw [hi, setModule_this, hplain]
    · rw [show (reg.setModule this m).module i = reg.module i from if_neg hi]
  · apply h.identified.congr fun _ => rfl
    intro i e
    unfold HasIdentified
    by_cases hi : i = this
    · rw [hi, setModule_this, hidentified]
    · rw [show (reg.setModule this m).module i = reg.module i from if_neg hi]
  · exact length_registrations_le _

theorem consistent_connectOnce (callback : Int) (identifier : Identifier) (h : reg.Consistent) :
    (reg.connectOnce this event callback identifier).2.Consistent := by
  have hconnect := consistent_connect this event callback identifier h
  unfold connectOnce
  generalize reg.connect this event callback identifier = result at hconnect
  obtain ⟨success, reg'⟩ := result
  dsimp only at hconnect ⊢
  split
  · split
    · exact consistent_marks this hconnect rfl rfl
    · exact consistent_marks this hconnect rfl rfl
  · exact hconnect

theorem consistent_checkConnectOnce (callback : Int) (h : reg.Consistent) :
    (reg.checkConnectOnce this event callback).Consistent := by
  unfold checkConnectOnce
  dsimp only
  split
  · apply consistent_disconnect
    exact consistent_marks this h rfl rfl
  · exact h

theorem consistent_checkConnectOnceIdentified (identifier : Identifier) (h : reg.Consistent) :
    (reg.checkConnectOnceIdentified this event identifier).Consistent := by
  unfold checkConnectOnceIdentified
  dsimp only
  split
  · exact h
  · split
    · apply consistent_disconnectIdentified
      exact consistent_marks this h rfl rfl
    · exact h

/-- `operator[]` may list no module for an event, and no list is as good. -/
theorem consistent_lists (h : reg.Consistent)
    {modules : AList (fun _ : EventName => List ModuleId)}
    (hmodules : ∀ e, (modules.lookup e).getD [] = reg.listedIdentified e) :
    Consistent { reg with identifiedModuleEvents := modules } := by
  constructor
  · exact h.plain
  · exact h.identified.congr hmodules fun _ _ => Iff.rfl
  · exact length_registrations_le _

end

/-! ## The identifiers of a module -/

/-- The map of a module for an event, empty where there is none. -/
def eventMap (reg : Registry) (m : ModuleId) (event : EventName) :
    AList (fun _ : Identifier => Registration) :=
  ((reg.module m).identifiedEventCallbacks.lookup event).getD ∅

/-- The callback a module has connected to an event under an identifier. -/
def identifiedCallback (reg : Registry) (m : ModuleId) (event : EventName)
    (identifier : Identifier) : Option Registration :=
  (reg.eventMap m event).lookup identifier

theorem hasIdentified_iff (reg : Registry) (m : ModuleId) (event : EventName) :
    reg.HasIdentified m event ↔ (reg.eventMap m event).keys ≠ [] := by
  unfold HasIdentified eventMap
  cases (reg.module m).identifiedEventCallbacks.lookup event with
  | none => simp
  | some eventMap => simp

theorem hasIdentified_of_callback {reg : Registry} {m : ModuleId} {event : EventName}
    {i : Identifier} (h : reg.identifiedCallback m event i ≠ none) :
    reg.HasIdentified m event := by
  rw [hasIdentified_iff]
  have hmem : i ∈ reg.eventMap m event :=
    AList.lookup_isSome.mp (Option.isSome_iff_ne_none.mpr h)
  exact List.ne_nil_of_mem (AList.mem_keys.mp hmem)

theorem erase_of_notMem {identifier : Identifier}
    {eventMap : AList (fun _ : Identifier => Registration)} (h : identifier ∉ eventMap) :
    eventMap.erase identifier = eventMap :=
  AList.ext (List.kerase_of_notMem_keys h)

theorem erase_twice (eventMap : AList (fun _ : Identifier => Registration))
    (identifier : Identifier) :
    (eventMap.erase identifier).erase identifier = eventMap.erase identifier :=
  erase_of_notMem fun h => (AList.mem_erase.mp h).1 rfl

/-- Taking an identifier out empties the map if it is the only one. -/
theorem keys_erase_eq_nil_iff {identifier : Identifier}
    {eventMap : AList (fun _ : Identifier => Registration)} (h : identifier ∈ eventMap) :
    (eventMap.erase identifier).keys = [] ↔ eventMap.keys = [identifier] := by
  have hmem : identifier ∈ eventMap.keys := h
  constructor
  · intro hnil
    have hall : ∀ i ∈ eventMap.keys, i = identifier := by
      intro i hi
      by_contra hne
      have hleft : i ∈ (eventMap.erase identifier).keys := AList.mem_erase.mpr ⟨hne, hi⟩
      rw [hnil] at hleft
      cases hleft
    have hnodup : eventMap.keys.Nodup := eventMap.keys_nodup
    match hkeys : eventMap.keys with
    | [] =>
        rw [hkeys] at hmem
        cases hmem
    | [i] => rw [hall i (by rw [hkeys]; exact List.mem_cons_self)]
    | i :: j :: rest =>
        rw [hkeys] at hall hnodup
        have hsame : i = j := (hall i (by simp)).trans (hall j (by simp)).symm
        exact absurd (hsame ▸ List.mem_cons_self) (List.nodup_cons.mp hnodup).1
  · intro hone
    refine List.eq_nil_iff_forall_not_mem.mpr fun i hi => ?_
    obtain ⟨hne, hin⟩ := AList.mem_erase.mp hi
    have hin' : i ∈ eventMap.keys := hin
    rw [hone] at hin'
    exact hne (List.mem_singleton.mp hin')

theorem eventMap_disconnectIdentified (reg : Registry) (this : ModuleId) (event : EventName)
    (identifier : Identifier) (clearList : Bool) (m : ModuleId) (e : EventName) :
    (reg.disconnectIdentified this event identifier clearList).eventMap m e =
      if m = this ∧ e = event then (reg.eventMap m e).erase identifier else reg.eventMap m e := by
  have hstep := identifiedStep_disconnectIdentified reg this event identifier clearList
  unfold eventMap
  by_cases hm : m = this
  · subst hm
    by_cases he : e = event
    · subst he
      rw [if_pos ⟨rfl, rfl⟩]
      unfold disconnectIdentified
      dsimp only
      split
      · rename_i hnone
        rw [hnone]
        rfl
      · rename_i eventMap heventMap
        rw [heventMap]
        split
        · rename_i hnone
          rw [heventMap]
          exact (erase_of_notMem (AList.lookup_eq_none.mp hnone)).symm
        · show ((Module.identifiedEventCallbacks (if m = m then _ else _)).lookup e).getD ∅ = _
          rw [if_pos rfl, AList.lookup_insert]
          rfl
    · rw [if_neg (fun hboth => he hboth.2), hstep.callbacks e he]
  · rw [if_neg (fun hboth => hm hboth.1), hstep.other m hm]

end Registry

/-- Every operation keeps the manager and the modules in step. -/
theorem Op.consistent (op : Op) {reg : Registry} (h : reg.Consistent) :
    (op.apply reg).Consistent := by
  cases op with
  | connect this event callback identifier =>
      exact Registry.consistent_connect this event callback identifier h
  | connectOnce this event callback identifier =>
      exact Registry.consistent_connectOnce this event callback identifier h
  | disconnect this event callback clearList =>
      exact Registry.consistent_disconnect this event callback clearList h
  | disconnectIdentified this event identifier clearList =>
      exact Registry.consistent_disconnectIdentified this event identifier clearList h
  | checkConnectOnce this event callback =>
      exact Registry.consistent_checkConnectOnce this event callback h
  | checkConnectOnceIdentified this event identifier =>
      exact Registry.consistent_checkConnectOnceIdentified this event identifier h
  | openIdentifiedEvent event =>
      apply Registry.consistent_lists h
      intro e
      by_cases he : e = event
      · rw [he, AList.lookup_insert]
        rfl
      · rw [AList.lookup_insert_ne he]
        rfl
  | openEventMap this event => exact Registry.consistent_openEventMap this event h
  | dropIdentifiedEvent event =>
      exact Registry.consistent_lists h (Registry.clear_getD event _ true)

theorem Reachable.consistent {reg : Registry} (h : Reachable reg) : reg.Consistent :=
  h.preserves Registry.consistent_empty fun op _ hreg => op.consistent hreg

end LoginServer.Core
