import LoginServer.Core.Subscriptions

/-!
# What the operations do to a topic

Every operation of `Module` and `ModuleManager` is a change of the view of
every topic.  `connect` and `disconnect` touch the maps of one event and of
one module, either the plain ones or those with identifiers, and only the
topics of that event see them.

## Main results

* `Op.change` — each operation, seen from any topic.
* `Reachable.preserves` — the invariant rule for the operations.
* `wellFormed_of_reachable` — the views of a registry the program can reach.
-/

namespace LoginServer.Core

/-! ## What the operations do to a view -/

section
variable {t : Topic}

theorem Module.registrations_plain (h : t.identifier.isEmpty = true) (m : Module) :
    m.registrations t = (m.eventCallbacks.lookup t.event).getD [] :=
  if_pos h

theorem Module.registrations_identified (h : ¬ t.identifier.isEmpty = true) (m : Module) :
    m.registrations t =
      (AList.lookup t.identifier
        ((m.identifiedEventCallbacks.lookup t.event).getD ∅)).toList := by
  rw [Module.registrations, if_neg h]
  cases m.identifiedEventCallbacks.lookup t.event with
  | none => rfl
  | some eventMap => rfl

end

namespace Registry

variable (reg : Registry) (this : ModuleId) (event : EventName) (t : Topic)

theorem subscribers_plain (h : t.identifier.isEmpty = true) :
    reg.subscribers t = reg.moduleEvents.lookup t.event :=
  if_pos h

theorem subscribers_identified (h : ¬ t.identifier.isEmpty = true) :
    reg.subscribers t = reg.identifiedModuleEvents.lookup t.event :=
  if_neg h

/-- Another module than the one that changes. -/
theorem registrations_setModule (m : Module) {i : ModuleId} (h : i ≠ this) :
    (reg.setModule this m).registrations t i = reg.registrations t i := by
  show Module.registrations (if i = this then m else reg.module i) t = _
  rw [if_neg h]
  rfl

theorem registrations_setModule_this (m : Module) :
    (reg.setModule this m).registrations t this = m.registrations t := by
  show Module.registrations (if this = this then m else reg.module this) t = _
  rw [if_pos rfl]

/-- One module changes in a way that the topic does not see. -/
theorem change_setModule {m : Module}
    (h : m.registrations t = reg.registrations t this) :
    (reg.view t).Change ((reg.setModule this m).view t) := by
  apply View.Change.same
  · rfl
  · intro i
    show (reg.setModule this m).registrations t i = reg.registrations t i
    by_cases hi : i = this
    · rw [hi, registrations_setModule_this, h]
    · exact registrations_setModule reg this t m hi
  · exact Nat.le_refl _

theorem change_openEventMap : (reg.view t).Change ((reg.openEventMap this event).view t) := by
  apply change_setModule
  show _ = (reg.module this).registrations t
  by_cases hplain : t.identifier.isEmpty = true
  · rw [Module.registrations_plain hplain, Module.registrations_plain hplain]
  · rw [Module.registrations_identified hplain, Module.registrations_identified hplain]
    by_cases hevent : t.event = event
    · rw [hevent, AList.lookup_insert]
      rfl
    · rw [AList.lookup_insert_ne hevent]

/-- An operation on the plain callbacks of one event and one module. -/
structure PlainStep (reg reg' : Registry) (this : ModuleId) (event : EventName) : Prop where
  serial : reg.serial ≤ reg'.serial
  other : ∀ i, i ≠ this → reg'.module i = reg.module i
  callbacks : ∀ e, e ≠ event →
    (reg'.module this).eventCallbacks.lookup e = (reg.module this).eventCallbacks.lookup e
  events : ∀ e, e ≠ event → reg'.moduleEvents.lookup e = reg.moduleEvents.lookup e
  identifiedCallbacks :
    (reg'.module this).identifiedEventCallbacks = (reg.module this).identifiedEventCallbacks
  identifiedEvents : reg'.identifiedModuleEvents = reg.identifiedModuleEvents

/-- An operation on the identified callbacks of one event and one module. -/
structure IdentifiedStep (reg reg' : Registry) (this : ModuleId) (event : EventName) : Prop where
  serial : reg.serial ≤ reg'.serial
  other : ∀ i, i ≠ this → reg'.module i = reg.module i
  callbacks : ∀ e, e ≠ event →
    (reg'.module this).identifiedEventCallbacks.lookup e =
      (reg.module this).identifiedEventCallbacks.lookup e
  events : ∀ e, e ≠ event →
    reg'.identifiedModuleEvents.lookup e = reg.identifiedModuleEvents.lookup e
  plainCallbacks : (reg'.module this).eventCallbacks = (reg.module this).eventCallbacks
  plainEvents : reg'.moduleEvents = reg.moduleEvents

section
variable {reg reg' : Registry} (this : ModuleId) (event : EventName)

/-- Only the plain topic of the event sees a plain operation. -/
theorem PlainStep.change (h : PlainStep reg reg' this event)
    (hevent : ∀ t : Topic, t.identifier.isEmpty = true → t.event = event →
      (reg.view t).Change (reg'.view t)) (t : Topic) : (reg.view t).Change (reg'.view t) := by
  by_cases ht : t.identifier.isEmpty = true ∧ t.event = event
  · exact hevent t ht.1 ht.2
  · apply View.Change.same
    · show (reg'.subscribers t).getD [] = (reg.subscribers t).getD []
      by_cases hplain : t.identifier.isEmpty = true
      · rw [subscribers_plain _ t hplain, subscribers_plain _ t hplain,
          h.events _ (fun he => ht ⟨hplain, he⟩)]
      · rw [subscribers_identified _ t hplain, subscribers_identified _ t hplain,
          h.identifiedEvents]
    · intro i
      show (reg'.module i).registrations t = (reg.module i).registrations t
      by_cases hi : i = this
      · subst hi
        by_cases hplain : t.identifier.isEmpty = true
        · rw [Module.registrations_plain hplain, Module.registrations_plain hplain,
            h.callbacks _ (fun he => ht ⟨hplain, he⟩)]
        · rw [Module.registrations_identified hplain, Module.registrations_identified hplain,
            h.identifiedCallbacks]
      · rw [h.other i hi]
    · exact h.serial

theorem IdentifiedStep.change (h : IdentifiedStep reg reg' this event)
    (hevent : ∀ t : Topic, ¬ t.identifier.isEmpty = true → t.event = event →
      (reg.view t).Change (reg'.view t)) (t : Topic) : (reg.view t).Change (reg'.view t) := by
  by_cases ht : ¬ t.identifier.isEmpty = true ∧ t.event = event
  · exact hevent t ht.1 ht.2
  · apply View.Change.same
    · show (reg'.subscribers t).getD [] = (reg.subscribers t).getD []
      by_cases hplain : t.identifier.isEmpty = true
      · rw [subscribers_plain _ t hplain, subscribers_plain _ t hplain, h.plainEvents]
      · rw [subscribers_identified _ t hplain, subscribers_identified _ t hplain,
          h.events _ (fun he => ht ⟨hplain, he⟩)]
    · intro i
      show (reg'.module i).registrations t = (reg.module i).registrations t
      by_cases hi : i = this
      · subst hi
        by_cases hplain : t.identifier.isEmpty = true
        · rw [Module.registrations_plain hplain, Module.registrations_plain hplain,
            h.plainCallbacks]
        · rw [Module.registrations_identified hplain, Module.registrations_identified hplain,
            h.callbacks _ (fun he => ht ⟨hplain, he⟩)]
      · rw [h.other i hi]
    · exact h.serial

end

theorem clear_lookup_ne (modules : AList (fun _ : EventName => List ModuleId))
    (clearList : Bool) {e : EventName} (h : e ≠ event) :
    (clear modules event clearList).lookup e = modules.lookup e := by
  unfold clear
  split
  · exact AList.lookup_erase_ne h
  · rfl

/-- Dropping an empty list shows in no view. -/
theorem clear_getD (modules : AList (fun _ : EventName => List ModuleId))
    (clearList : Bool) (e : EventName) :
    ((clear modules event clearList).lookup e).getD [] = (modules.lookup e).getD [] := by
  by_cases he : e = event
  · subst he
    unfold clear
    split
    · rename_i h
      rw [AList.lookup_erase, h.2]
      rfl
    · rfl
  · rw [clear_lookup_ne event modules clearList he]

theorem plainStep_connect (callback : Int) {identifier : Identifier}
    (h : identifier.isEmpty = true) :
    PlainStep reg (reg.connect this event callback identifier).2 this event := by
  rw [connect, if_pos h]
  constructor
  · exact Nat.le_succ _
  · intro i hi
    exact if_neg hi
  · intro e he
    show (Module.eventCallbacks (if this = this then _ else _)).lookup e = _
    rw [if_pos rfl]
    exact AList.lookup_insert_ne he
  · intro e he
    exact AList.lookup_insert_ne he
  · show Module.identifiedEventCallbacks (if this = this then _ else _) = _
    rw [if_pos rfl]
  · rfl

/-- A plain callback is added. -/
theorem change_connect_plain (callback : Int) {identifier : Identifier}
    (h : identifier.isEmpty = true) :
    (reg.view t).Change ((reg.connect this event callback identifier).2.view t) := by
  apply (plainStep_connect reg this event callback h).change this event
  rintro t hplain rfl
  rw [connect, if_pos h]
  apply View.Change.subscribe this [⟨callback, reg.serial⟩]
  · show (subscribers _ t).getD [] = enlist ((reg.subscribers t).getD []) this
    rw [subscribers_plain _ t hplain, subscribers_plain _ t hplain, AList.lookup_insert]
    rfl
  · show registrations _ t this = reg.registrations t this ++ _
    apply (registrations_setModule_this reg this t _).trans
    rw [Module.registrations_plain hplain, AList.lookup_insert, Registry.registrations,
      Module.registrations_plain hplain]
    rfl
  · intro i hi
    exact registrations_setModule reg this t _ hi
  · exact Nat.le_refl _
  · intro r hr
    rw [List.mem_singleton.mp hr]
    rfl
  · exact Nat.lt_succ_self _

theorem identifiedStep_connect (callback : Int) {identifier : Identifier}
    (h : ¬ identifier.isEmpty = true) :
    IdentifiedStep reg (reg.connect this event callback identifier).2 this event := by
  rw [connect, if_neg h]
  dsimp only
  constructor
  · split
    · exact Nat.le_refl _
    · exact Nat.le_succ _
  · intro i hi
    split <;> exact if_neg hi
  · intro e he
    split
    · show (Module.identifiedEventCallbacks (if this = this then _ else _)).lookup e = _
      rw [if_pos rfl]
      exact AList.lookup_insert_ne he
    · show (Module.identifiedEventCallbacks (if this = this then _ else _)).lookup e = _
      rw [if_pos rfl]
      exact AList.lookup_insert_ne he
  · intro e he
    split
    · rfl
    · exact AList.lookup_insert_ne he
  · split
    · show Module.eventCallbacks (if this = this then _ else _) = _
      rw [if_pos rfl]
    · show Module.eventCallbacks (if this = this then _ else _) = _
      rw [if_pos rfl]
  · split <;> rfl

/-- An identified callback is added, or the identifier is in use. -/
theorem change_connect_identified (callback : Int) {identifier : Identifier}
    (h : ¬ identifier.isEmpty = true) :
    (reg.view t).Change ((reg.connect this event callback identifier).2.view t) := by
  apply (identifiedStep_connect reg this event callback h).change this event
  rintro t hnot rfl
  rw [connect, if_neg h]
  dsimp only
  split
  · exact change_openEventMap reg this t.event t
  · rename_i hfree
    apply View.Change.subscribe this
      (if t.identifier = identifier then [⟨callback, reg.serial⟩] else [])
    · show (subscribers _ t).getD [] = enlist ((reg.subscribers t).getD []) this
      rw [subscribers_identified _ t hnot, subscribers_identified _ t hnot,
        AList.lookup_insert]
      rfl
    · show registrations _ t this = reg.registrations t this ++ _
      apply (registrations_setModule_this reg this t _).trans
      rw [Module.registrations_identified hnot, AList.lookup_insert, Registry.registrations,
        Module.registrations_identified hnot, Option.getD_some]
      by_cases hsame : t.identifier = identifier
      · rw [if_pos hsame, hsame, AList.lookup_insert, AList.lookup_eq_none.mpr hfree]
        rfl
      · rw [if_neg hsame, AList.lookup_insert_ne hsame, List.append_nil]
    · intro i hi
      exact registrations_setModule reg this t _ hi
    · split <;> simp
    · intro r hr
      split at hr
      · rw [List.mem_singleton.mp hr]
        rfl
      · simp at hr
    · exact Nat.lt_succ_self _

theorem change_connect (callback : Int) (identifier : Identifier) :
    (reg.view t).Change ((reg.connect this event callback identifier).2.view t) := by
  by_cases h : identifier.isEmpty = true
  · exact change_connect_plain reg this event t callback h
  · exact change_connect_identified reg this event t callback h

theorem plainStep_disconnect (callback : Int) (clearList : Bool) :
    PlainStep reg (reg.disconnect this event callback clearList) this event := by
  unfold disconnect
  dsimp only
  constructor
  · split
    · exact Nat.le_refl _
    · split <;> exact Nat.le_refl _
  · intro i hi
    split
    · rfl
    · split <;> exact if_neg hi
  · intro e he
    split
    · rfl
    · split
      · show (Module.eventCallbacks (if this = this then _ else _)).lookup e = _
        rw [if_pos rfl]
        exact AList.lookup_erase_ne he
      · show (Module.eventCallbacks (if this = this then _ else _)).lookup e = _
        rw [if_pos rfl]
        exact AList.lookup_insert_ne he
  · intro e he
    rw [clear_lookup_ne event _ clearList he]
    split
    · rfl
    · split
      · exact AList.lookup_insert_ne he
      · rfl
  · split
    · rfl
    · split
      · show Module.identifiedEventCallbacks (if this = this then _ else _) = _
        rw [if_pos rfl]
      · show Module.identifiedEventCallbacks (if this = this then _ else _) = _
        rw [if_pos rfl]
  · split
    · rfl
    · split <;> rfl

/-- The callbacks with one number are taken out. -/
theorem change_disconnect (callback : Int) (clearList : Bool) :
    (reg.view t).Change ((reg.disconnect this event callback clearList).view t) := by
  apply (plainStep_disconnect reg this event callback clearList).change this event
  rintro t hplain rfl
  unfold disconnect
  dsimp only
  split
  · apply View.Change.same
    · show (subscribers _ t).getD [] = (reg.subscribers t).getD []
      rw [subscribers_plain _ t hplain, subscribers_plain _ t hplain, clear_getD]
    · intro i
      rfl
    · exact Nat.le_refl _
  · rename_i callbacks hcallbacks
    have hbefore : reg.registrations t this = callbacks := by
      rw [Registry.registrations, Module.registrations_plain hplain, hcallbacks]
      rfl
    apply View.Change.unsubscribe this fun r => r.callback ≠ callback
    · show (subscribers _ t).getD [] = (reg.subscribers t).getD [] ∨
        (registrations _ t this = [] ∧
          (subscribers _ t).getD [] = ((reg.subscribers t).getD []).filter (· ≠ this))
      rw [subscribers_plain _ t hplain, subscribers_plain _ t hplain, clear_getD]
      split
      · right
        constructor
        · apply (registrations_setModule_this reg this t _).trans
          rw [Module.registrations_plain hplain, AList.lookup_erase]
          rfl
        · rw [AList.lookup_insert]
          rfl
      · left
        rfl
    · show registrations _ t this = (reg.registrations t this).filter _
      rw [hbefore]
      split
      · rename_i hempty
        apply (registrations_setModule_this reg this t _).trans
        rw [Module.registrations_plain hplain, AList.lookup_erase,
          List.isEmpty_iff.mp hempty]
        rfl
      · apply (registrations_setModule_this reg this t _).trans
        rw [Module.registrations_plain hplain, AList.lookup_insert]
        rfl
    · intro i hi
      split <;> exact registrations_setModule reg this t _ hi
    · split <;> exact Nat.le_refl _

theorem identifiedStep_disconnectIdentified (identifier : Identifier) (clearList : Bool) :
    IdentifiedStep reg (reg.disconnectIdentified this event identifier clearList) this event := by
  unfold disconnectIdentified
  dsimp only
  split
  · exact ⟨Nat.le_refl _, fun _ _ => rfl, fun _ _ => rfl, fun _ _ => rfl, rfl, rfl⟩
  rename_i eventMap heventMap
  constructor
  · split <;> exact Nat.le_refl _
  · intro i hi
    split
    · rfl
    · exact if_neg hi
  · intro e he
    split
    · rfl
    · show (Module.identifiedEventCallbacks (if this = this then _ else _)).lookup e = _
      rw [if_pos rfl]
      exact AList.lookup_insert_ne he
  · intro e he
    rw [clear_lookup_ne event _ clearList he]
    split
    · rfl
    · exact AList.lookup_insert_ne he
  · split
    · rfl
    · show Module.eventCallbacks (if this = this then _ else _) = _
      rw [if_pos rfl]
  · split <;> rfl

/-- The callback of an identifier is taken out. -/
theorem change_disconnectIdentified (identifier : Identifier) (clearList : Bool) :
    (reg.view t).Change ((reg.disconnectIdentified this event identifier clearList).view t) := by
  apply (identifiedStep_disconnectIdentified reg this event identifier clearList).change this event
  rintro t hnot rfl
  unfold disconnectIdentified
  dsimp only
  split
  · exact View.Change.same rfl (fun _ => rfl) (Nat.le_refl _)
  rename_i eventMap heventMap
  split
  · apply View.Change.same
    · show (subscribers _ t).getD [] = (reg.subscribers t).getD []
      rw [subscribers_identified _ t hnot, subscribers_identified _ t hnot, clear_getD]
    · intro i
      rfl
    · exact Nat.le_refl _
  · rename_i registration hregistration
    have hbefore : reg.registrations t this = (eventMap.lookup t.identifier).toList := by
      rw [Registry.registrations, Module.registrations_identified hnot, heventMap]
      rfl
    have hafter : ∀ m : Module, m.identifiedEventCallbacks =
        (reg.module this).identifiedEventCallbacks.insert t.event (eventMap.erase identifier) →
        m.registrations t = ((eventMap.erase identifier).lookup t.identifier).toList := by
      intro m hm
      rw [Module.registrations_identified hnot, hm, AList.lookup_insert]
      rfl
    apply View.Change.unsubscribe this fun _ => t.identifier ≠ identifier
    · show (subscribers _ t).getD [] = (reg.subscribers t).getD [] ∨
        (registrations _ t this = [] ∧
          (subscribers _ t).getD [] = ((reg.subscribers t).getD []).filter (· ≠ this))
      rw [subscribers_identified _ t hnot, subscribers_identified _ t hnot, clear_getD,
        AList.lookup_insert]
      split
      · -- no identifier of the event is left
        rename_i hkeys
        right
        constructor
        · apply (registrations_setModule_this reg this t _).trans
          rw [hafter _ rfl, AList.lookup_eq_none.mpr]
          · rfl
          · rw [AList.mem_keys, hkeys]
            exact List.not_mem_nil
        · rfl
      · left
        rfl
    · show registrations _ t this = (reg.registrations t this).filter _
      rw [hbefore]
      apply (registrations_setModule_this reg this t _).trans
      rw [hafter _ rfl]
      by_cases hsame : t.identifier = identifier
      · rw [hsame, AList.lookup_erase]
        simp
      · rw [AList.lookup_erase_ne hsame]
        simp [hsame]
    · intro i hi
      exact registrations_setModule reg this t _ hi
    · exact Nat.le_refl _

/-- The marks `connectOnce` leaves show in no topic. -/
theorem view_marks (m : Module) (hplain : m.eventCallbacks = (reg.module this).eventCallbacks)
    (hidentified :
      m.identifiedEventCallbacks = (reg.module this).identifiedEventCallbacks) :
    (reg.setModule this m).view t = reg.view t := by
  have hregistrations : (reg.setModule this m).registrations t = reg.registrations t := by
    funext i
    by_cases hi : i = this
    · rw [hi, registrations_setModule_this, Module.registrations, hplain, hidentified]
      rfl
    · exact registrations_setModule reg this t m hi
  rw [view, view, hregistrations]
  rfl

theorem change_connectOnce (callback : Int) (identifier : Identifier) :
    (reg.view t).Change ((reg.connectOnce this event callback identifier).2.view t) := by
  have hconnect := change_connect reg this event t callback identifier
  unfold connectOnce
  generalize reg.connect this event callback identifier = result at hconnect
  obtain ⟨success, reg'⟩ := result
  dsimp only at hconnect ⊢
  split
  · split
    · exact Eq.mpr (congrArg _ (view_marks reg' this t
        { reg'.module this with onceConnects := _ } rfl rfl)) hconnect
    · exact Eq.mpr (congrArg _ (view_marks reg' this t
        { reg'.module this with identifiedOnceConnects := _ } rfl rfl)) hconnect
  · exact hconnect

theorem change_checkConnectOnce (callback : Int) :
    (reg.view t).Change ((reg.checkConnectOnce this event callback).view t) := by
  unfold checkConnectOnce
  dsimp only
  split
  · rw [← view_marks reg this t
      { reg.module this with onceConnects := (reg.module this).onceConnects.erase callback }
      rfl rfl]
    exact change_disconnect _ this event t callback true
  · exact View.Change.same rfl (fun _ => rfl) (Nat.le_refl _)

theorem change_checkConnectOnceIdentified (identifier : Identifier) :
    (reg.view t).Change ((reg.checkConnectOnceIdentified this event identifier).view t) := by
  unfold checkConnectOnceIdentified
  dsimp only
  split
  · exact View.Change.same rfl (fun _ => rfl) (Nat.le_refl _)
  · rename_i identifiers _
    split
    · rw [← view_marks reg this t
        { reg.module this with
          identifiedOnceConnects :=
            (reg.module this).identifiedOnceConnects.insert event (identifiers.erase identifier) }
        rfl rfl]
      exact change_disconnectIdentified _ this event t identifier true
    · exact View.Change.same rfl (fun _ => rfl) (Nat.le_refl _)

/-- Opening and dropping empty lists of identified modules shows in no view. -/
theorem change_of_identifiedEvents {reg reg' : Registry} (hmodule : reg'.module = reg.module)
    (hevents : reg'.moduleEvents = reg.moduleEvents) (hserial : reg.serial ≤ reg'.serial)
    (hidentified : ∀ e, (reg'.identifiedModuleEvents.lookup e).getD [] =
      (reg.identifiedModuleEvents.lookup e).getD []) :
    (reg.view t).Change (reg'.view t) := by
  apply View.Change.same
  · show (subscribers _ t).getD [] = (reg.subscribers t).getD []
    by_cases hplain : t.identifier.isEmpty = true
    · rw [subscribers_plain _ t hplain, subscribers_plain _ t hplain, hevents]
    · rw [subscribers_identified _ t hplain, subscribers_identified _ t hplain]
      exact hidentified t.event
  · intro i
    show (reg'.module i).registrations t = (reg.module i).registrations t
    rw [hmodule]
  · exact hserial

theorem change_openIdentifiedEvent :
    (reg.view t).Change ((reg.openIdentifiedEvent event).view t) := by
  refine change_of_identifiedEvents t rfl rfl (Nat.le_refl _) ?_
  intro e
  unfold openIdentifiedEvent
  dsimp only
  by_cases hevent : e = event
  · rw [hevent, AList.lookup_insert]
    rfl
  · rw [AList.lookup_insert_ne hevent]

theorem change_dropIdentifiedEvent :
    (reg.view t).Change ((reg.dropIdentifiedEvent event).view t) :=
  change_of_identifiedEvents t rfl rfl (Nat.le_refl _) (clear_getD event _ true)

end Registry

/-- Every operation, seen from any topic. -/
theorem Op.change (op : Op) (reg : Registry) (t : Topic) :
    (reg.view t).Change ((op.apply reg).view t) := by
  cases op with
  | connect this event callback identifier =>
      exact reg.change_connect this event t callback identifier
  | connectOnce this event callback identifier =>
      exact reg.change_connectOnce this event t callback identifier
  | disconnect this event callback clearList =>
      exact reg.change_disconnect this event t callback clearList
  | disconnectIdentified this event identifier clearList =>
      exact reg.change_disconnectIdentified this event t identifier clearList
  | checkConnectOnce this event callback =>
      exact reg.change_checkConnectOnce this event t callback
  | checkConnectOnceIdentified this event identifier =>
      exact reg.change_checkConnectOnceIdentified this event t identifier
  | openIdentifiedEvent event => exact reg.change_openIdentifiedEvent event t
  | openEventMap this event => exact reg.change_openEventMap this event t
  | dropIdentifiedEvent event => exact reg.change_dropIdentifiedEvent event t

theorem wellFormed_empty (t : Topic) : (({} : Registry).view t).WellFormed := by
  have hnone : ∀ m, (({} : Registry).view t).registrations m = [] := by
    intro m
    show Module.registrations {} t = []
    unfold Module.registrations
    split <;> rfl
  constructor
  · show ((({} : Registry).subscribers t).getD []).Nodup
    unfold Registry.subscribers
    split <;> exact List.nodup_nil
  · intro m hm
    exact absurd (hnone m) hm
  · intro m r hr
    rw [hnone] at hr
    exact absurd hr List.not_mem_nil
  · intro m
    rw [hnone]
    exact List.nodup_nil
  · intro m m' r r' hr
    rw [hnone] at hr
    exact absurd hr List.not_mem_nil

/-- What holds of the empty registry and survives every operation holds of
every registry the program can reach. -/
theorem Reachable.preserves {Inv : Registry → Prop} (hempty : Inv {})
    (hop : ∀ (op : Op) reg, Inv reg → Inv (op.apply reg)) {reg : Registry}
    (h : Reachable reg) : Inv reg := by
  obtain ⟨ops, rfl⟩ := h
  have hrun : ∀ (ops : List Op) (reg : Registry), Inv reg →
      Inv (ops.foldl (fun reg op => op.apply reg) reg) := by
    intro ops
    induction ops with
    | nil => exact fun reg hreg => hreg
    | cons op ops ih => exact fun reg hreg => ih (op.apply reg) (hop op reg hreg)
  exact hrun ops {} hempty

theorem wellFormed_of_reachable {reg : Registry} (h : Reachable reg) (t : Topic) :
    (reg.view t).WellFormed := by
  have hop : ∀ (op : Op) (reg : Registry), (reg.view t).WellFormed →
      ((op.apply reg).view t).WellFormed :=
    fun op reg hreg => (op.change reg t).wellFormed hreg
  exact h.preserves (wellFormed_empty t) hop

end LoginServer.Core
