import LoginServer.Core.History

/-!
# The ledger of connections and references

What matters about a registry, apart from how its maps are laid out: which
registrations every module holds for every topic, and which references were
given back to Lua.  On that level an operation does nothing, adds one
registration, or takes out those with one callback and releases the callback
if that leaves none.

## Main results

* `Op.tidy` — the maps keep no empty list of callbacks and no empty
  identifier.
* `Op.ledger` — every operation posts its entry.
* `Op.registrations_apply` — what is held after it.
-/

namespace LoginServer.Core

/-- Who holds what, what was released, and the number of the next `connect`. -/
structure Ledger where
  held : ModuleId → Topic → List Registration
  released : List Int
  serial : Nat

def Registry.ledger (reg : Registry) : Ledger :=
  ⟨fun m t => reg.registrations t m, reg.released, reg.serial⟩

namespace Ledger

def set (l : Ledger) (m : ModuleId) (t : Topic) (rs : List Registration) : Ledger :=
  { l with held := fun m' t' => if m' = m ∧ t' = t then rs else l.held m' t' }

/-- What is left for a topic without one callback. -/
def left (l : Ledger) (m : ModuleId) (t : Topic) (callback : Int) : List Registration :=
  (l.held m t).filter fun r => r.callback ≠ callback

/-- The last registration of a topic goes. -/
def Empties (l : Ledger) (m : ModuleId) (t : Topic) (callback : Int) : Prop :=
  l.held m t ≠ [] ∧ l.left m t callback = []

instance (l : Ledger) (m : ModuleId) (t : Topic) (callback : Int) :
    Decidable (l.Empties m t callback) :=
  inferInstanceAs (Decidable (_ ∧ _))

end Ledger

/-- An entry of the ledger. -/
inductive Entry where
  | nothing
  | add (m : ModuleId) (t : Topic) (callback : Int)
  | remove (m : ModuleId) (t : Topic) (callback : Int)
  deriving DecidableEq

def Entry.post (l : Ledger) : Entry → Ledger
  | .nothing => l
  | .add m t callback =>
      { l.set m t (l.held m t ++ [⟨callback, l.serial⟩]) with serial := l.serial + 1 }
  | .remove m t callback =>
      { l.set m t (l.left m t callback) with
        released := if l.Empties m t callback then callback :: l.released else l.released }

namespace Registry

/-- `connect` refuses an identifier that is in use. -/
def Accepts (reg : Registry) (this : ModuleId) (t : Topic) : Prop :=
  t.identifier = [] ∨ reg.registrations t this = []

instance (reg : Registry) (this : ModuleId) (t : Topic) : Decidable (reg.Accepts this t) :=
  inferInstanceAs (Decidable (_ ∨ _))

/-- A module has a mark of `connectOnce` for a registration. -/
def Marked (reg : Registry) (this : ModuleId) (t : Topic) (callback : Int) : Prop :=
  if t.identifier = [] then callback ∈ (reg.module this).onceConnects
  else t.identifier ∈ ((reg.module this).identifiedOnceConnects.lookup t.event).getD []

instance (reg : Registry) (this : ModuleId) (t : Topic) (callback : Int) :
    Decidable (reg.Marked this t callback) :=
  inferInstanceAs (Decidable (if t.identifier = [] then callback ∈ (reg.module this).onceConnects
    else t.identifier ∈ ((reg.module this).identifiedOnceConnects.lookup t.event).getD []))

/-- The entry that takes out the callback of an identifier. -/
def takeOut (reg : Registry) (this : ModuleId) (t : Topic) : Entry :=
  if t.identifier = [] then .nothing
  else
    match (reg.registrations t this).head? with
    | none => .nothing
    | some r => .remove this t r.callback

end Registry

/-- The entry an operation posts. -/
def Op.entry (reg : Registry) : Op → Entry
  | .connect this event callback identifier =>
      if reg.Accepts this ⟨event, identifier⟩ then .add this ⟨event, identifier⟩ callback
      else .nothing
  | .connectOnce this event callback identifier =>
      if reg.Accepts this ⟨event, identifier⟩ then .add this ⟨event, identifier⟩ callback
      else .nothing
  | .disconnect this event callback _ => .remove this ⟨event, []⟩ callback
  | .disconnectIdentified this event identifier _ => reg.takeOut this ⟨event, identifier⟩
  | .checkConnectOnce this event callback =>
      if reg.Marked this ⟨event, []⟩ callback then .remove this ⟨event, []⟩ callback
      else .nothing
  | .checkConnectOnceIdentified this event identifier =>
      if identifier ∈ ((reg.module this).identifiedOnceConnects.lookup event).getD [] then
        reg.takeOut this ⟨event, identifier⟩
      else .nothing
  | .openIdentifiedEvent _ => .nothing
  | .openEventMap _ _ => .nothing
  | .dropIdentifiedEvent _ => .nothing

/-! ## Tidy maps -/

/-- No list of callbacks is empty, and no callback has the empty identifier. -/
structure Module.Tidy (m : Module) : Prop where
  callbacks : ∀ e, m.eventCallbacks.lookup e ≠ some []
  identifiers : ∀ e eventMap, m.identifiedEventCallbacks.lookup e = some eventMap →
    ([] : Identifier) ∉ eventMap

def Registry.Tidy (reg : Registry) : Prop := ∀ i, (reg.module i).Tidy

namespace Registry

theorem tidy_empty : Tidy {} := by
  intro i
  constructor
  · exact fun e h => nomatch h
  · exact fun e eventMap h => nomatch h

section
variable {reg : Registry} (h : reg.Tidy) (this : ModuleId) (event : EventName)
include h

theorem Tidy.setModule {m : Module} (hm : m.Tidy) : (reg.setModule this m).Tidy := by
  intro i
  by_cases hi : i = this
  · rw [hi, setModule_this]
    exact hm
  · rw [show (reg.setModule this m).module i = reg.module i from if_neg hi]
    exact h i

theorem Tidy.insertCallbacks {callbacks : List Registration} (hne : callbacks ≠ []) :
    ({ reg.module this with
        eventCallbacks := (reg.module this).eventCallbacks.insert event callbacks } :
      Module).Tidy := by
  constructor
  · intro e
    by_cases he : e = event
    · rw [he, AList.lookup_insert]
      exact fun heq => hne (Option.some.inj heq)
    · rw [AList.lookup_insert_ne he]
      exact (h this).callbacks e
  · exact (h this).identifiers

theorem Tidy.insertMap {eventMap : AList (fun _ : Identifier => Registration)}
    (hnot : [] ∉ eventMap) :
    ({ reg.module this with
        identifiedEventCallbacks :=
          (reg.module this).identifiedEventCallbacks.insert event eventMap } :
      Module).Tidy := by
  constructor
  · exact (h this).callbacks
  · intro e found hfound
    by_cases he : e = event
    · rw [he, AList.lookup_insert] at hfound
      rwa [← Option.some.inj hfound]
    · rw [AList.lookup_insert_ne he] at hfound
      exact (h this).identifiers e found hfound

/-- The map of an event, or a new one. -/
theorem Tidy.eventMap :
    [] ∉ ((reg.module this).identifiedEventCallbacks.lookup event).getD ∅ := by
  cases hlookup : (reg.module this).identifiedEventCallbacks.lookup event with
  | none => exact List.not_mem_nil
  | some eventMap => exact (h this).identifiers event eventMap hlookup

theorem Tidy.openEventMap : (reg.openEventMap this event).Tidy :=
  h.setModule this (h.insertMap this event (h.eventMap this event))

theorem Tidy.connect (callback : Int) (identifier : Identifier) :
    (reg.connect this event callback identifier).2.Tidy := by
  unfold Registry.connect
  dsimp only
  split
  · apply h.setModule this (h.insertCallbacks this event _)
    exact List.append_ne_nil_of_right_ne_nil _ (List.cons_ne_nil _ _)
  · rename_i hidentifier
    split
    · exact h.openEventMap this event
    · apply h.setModule this (h.insertMap this event _)
      rw [AList.mem_insert, not_or]
      constructor
      · rintro rfl
        exact hidentifier rfl
      · exact h.eventMap this event

theorem Tidy.disconnect (callback : Int) (clearList : Bool) :
    (reg.disconnect this event callback clearList).Tidy := by
  unfold Registry.disconnect
  dsimp only
  split
  · exact h
  · split
    · apply h.setModule this
      constructor
      · intro e
        by_cases he : e = event
        · rw [he, AList.lookup_erase]
          exact fun heq => nomatch heq
        · rw [AList.lookup_erase_ne he]
          exact (h this).callbacks e
      · exact (h this).identifiers
    · rename_i hleft
      apply h.setModule this (h.insertCallbacks this event _)
      exact fun hnil => hleft (List.isEmpty_iff.mpr hnil)

theorem Tidy.disconnectIdentified (identifier : Identifier) (clearList : Bool) :
    (reg.disconnectIdentified this event identifier clearList).Tidy := by
  unfold Registry.disconnectIdentified
  dsimp only
  split
  · exact h
  · rename_i eventMap heventMap
    split
    · exact h
    · apply h.setModule this (h.insertMap this event _)
      rw [AList.mem_erase, not_and]
      exact fun _ => (h this).identifiers event eventMap heventMap

theorem Tidy.marks {m : Module} (hplain : m.eventCallbacks = (reg.module this).eventCallbacks)
    (hidentified :
      m.identifiedEventCallbacks = (reg.module this).identifiedEventCallbacks) :
    (reg.setModule this m).Tidy := by
  apply h.setModule this
  constructor
  · rw [hplain]
    exact (h this).callbacks
  · rw [hidentified]
    exact (h this).identifiers

theorem Tidy.connectOnce (callback : Int) (identifier : Identifier) :
    (reg.connectOnce this event callback identifier).2.Tidy := by
  have hconnect := h.connect this event callback identifier
  unfold Registry.connectOnce
  generalize reg.connect this event callback identifier = result at hconnect
  obtain ⟨success, reg'⟩ := result
  dsimp only at hconnect ⊢
  split
  · split
    · exact hconnect.marks this rfl rfl
    · exact hconnect.marks this rfl rfl
  · exact hconnect

end

end Registry

/-- Every operation keeps the maps tidy. -/
theorem Op.tidy (op : Op) {reg : Registry} (h : reg.Tidy) : (op.apply reg).Tidy := by
  cases op with
  | connect this event callback identifier => exact h.connect this event callback identifier
  | connectOnce this event callback identifier =>
      exact h.connectOnce this event callback identifier
  | disconnect this event callback clearList => exact h.disconnect this event callback clearList
  | disconnectIdentified this event identifier clearList =>
      exact h.disconnectIdentified this event identifier clearList
  | checkConnectOnce this event callback =>
      show (reg.checkConnectOnce this event callback).Tidy
      unfold Registry.checkConnectOnce
      dsimp only
      split
      · apply Registry.Tidy.disconnect
        exact h.marks this rfl rfl
      · exact h
  | checkConnectOnceIdentified this event identifier =>
      show (reg.checkConnectOnceIdentified this event identifier).Tidy
      unfold Registry.checkConnectOnceIdentified
      dsimp only
      split
      · exact h
      · split
        · apply Registry.Tidy.disconnectIdentified
          exact h.marks this rfl rfl
        · exact h
  | openIdentifiedEvent event => exact h
  | openEventMap this event => exact h.openEventMap this event
  | dropIdentifiedEvent event => exact h

/-! ## The entry of an operation -/

namespace Registry

section
variable {reg reg' : Registry} {this : ModuleId} {event : EventName}

/-- A plain operation shows in the plain topic of its event only. -/
theorem PlainStep.registrations (h : PlainStep reg reg' this event) {m : ModuleId} {t : Topic}
    (hne : ¬ (m = this ∧ t = ⟨event, []⟩)) :
    reg'.registrations t m = reg.registrations t m := by
  show (reg'.module m).registrations t = (reg.module m).registrations t
  by_cases hm : m = this
  · subst hm
    by_cases hplain : t.identifier.isEmpty = true
    · have he : t.event ≠ event := by
        rintro rfl
        apply hne
        rw [← List.isEmpty_iff.mp hplain]
        exact ⟨rfl, rfl⟩
      rw [Module.registrations_plain hplain, Module.registrations_plain hplain, h.callbacks _ he]
    · rw [Module.registrations_identified hplain, Module.registrations_identified hplain,
        h.identifiedCallbacks]
  · rw [h.other m hm]

/-- An operation with an identifier shows in the topics of its event that have
one. -/
theorem IdentifiedStep.registrations (h : IdentifiedStep reg reg' this event) {m : ModuleId}
    {t : Topic} (hne : ¬ (m = this ∧ t.event = event ∧ t.identifier ≠ [])) :
    reg'.registrations t m = reg.registrations t m := by
  show (reg'.module m).registrations t = (reg.module m).registrations t
  by_cases hm : m = this
  · subst hm
    by_cases hplain : t.identifier.isEmpty = true
    · rw [Module.registrations_plain hplain, Module.registrations_plain hplain, h.plainCallbacks]
    · have he : t.event ≠ event := by
        intro he
        apply hne
        refine ⟨rfl, he, ?_⟩
        intro hnil
        exact hplain (List.isEmpty_iff.mpr hnil)
      rw [Module.registrations_identified hplain, Module.registrations_identified hplain,
        h.callbacks _ he]
  · rw [h.other m hm]

end

variable (reg : Registry) (this : ModuleId) (event : EventName)

theorem registrations_nil (m : ModuleId) (e : EventName) :
    reg.registrations ⟨e, []⟩ m = ((reg.module m).eventCallbacks.lookup e).getD [] :=
  Module.registrations_plain rfl _

theorem registrations_of_ne {identifier : Identifier} (h : identifier ≠ []) (m : ModuleId)
    (e : EventName) :
    reg.registrations ⟨e, identifier⟩ m =
      (AList.lookup identifier
        (((reg.module m).identifiedEventCallbacks.lookup e).getD ∅)).toList :=
  Module.registrations_identified (fun hempty => h (List.isEmpty_iff.mp hempty)) _

theorem accepts_iff {identifier : Identifier} (h : identifier ≠ []) :
    reg.Accepts this ⟨event, identifier⟩ ↔
      identifier ∉ ((reg.module this).identifiedEventCallbacks.lookup event).getD ∅ := by
  rw [Accepts, registrations_of_ne reg h, ← AList.lookup_eq_none]
  cases AList.lookup identifier (((reg.module this).identifiedEventCallbacks.lookup event).getD ∅)
  · simp
  · simp [h]

/-- `connect` says whether it accepted. -/
theorem connect_fst (callback : Int) (identifier : Identifier) :
    (reg.connect this event callback identifier).1 = true ↔
      reg.Accepts this ⟨event, identifier⟩ := by
  by_cases hplain : identifier = []
  · subst hplain
    exact iff_of_true rfl (Or.inl rfl)
  · rw [accepts_iff reg this event hplain, connect,
      if_neg (fun hempty => hplain (List.isEmpty_iff.mp hempty))]
    dsimp only
    split
    · rename_i hused
      exact iff_of_false Bool.noConfusion (fun hnot => hnot hused)
    · rename_i hfree
      exact iff_of_true rfl hfree

theorem ledger_ext {l l' : Ledger} (hheld : ∀ m t, l'.held m t = l.held m t)
    (hreleased : l'.released = l.released) (hserial : l'.serial = l.serial) : l' = l := by
  obtain ⟨held, released, serial⟩ := l
  obtain ⟨held', released', serial'⟩ := l'
  obtain rfl : held' = held := by
    funext m t
    exact hheld m t
  cases hreleased
  cases hserial
  rfl

theorem ledger_openEventMap : (reg.openEventMap this event).ledger = reg.ledger := by
  apply ledger_ext
  · intro m t
    show (reg.openEventMap this event).registrations t m = reg.registrations t m
    by_cases hm : m = this
    · subst hm
      by_cases hplain : t.identifier.isEmpty = true
      · show (Registry.module _ m).registrations t = (reg.module m).registrations t
        rw [openEventMap, setModule_this, Module.registrations_plain hplain,
          Module.registrations_plain hplain]
      · show (Registry.module _ m).registrations t = (reg.module m).registrations t
        rw [openEventMap, setModule_this, Module.registrations_identified hplain,
          Module.registrations_identified hplain]
        by_cases he : t.event = event
        · rw [he, AList.lookup_insert]
          rfl
        · rw [AList.lookup_insert_ne he]
    · exact registrations_setModule reg this t _ hm
  · rfl
  · rfl

/-- A registration is added, unless its identifier is in use. -/
theorem ledger_connect (callback : Int) (identifier : Identifier) :
    (reg.connect this event callback identifier).2.ledger =
      (if reg.Accepts this ⟨event, identifier⟩ then
        Entry.add this ⟨event, identifier⟩ callback
      else .nothing).post reg.ledger := by
  by_cases hplain : identifier = []
  · subst hplain
    have haccepts : reg.Accepts this ⟨event, []⟩ := Or.inl rfl
    rw [if_pos haccepts]
    have hstep : PlainStep reg (reg.connect this event callback []).2 this event :=
      plainStep_connect reg this event callback rfl
    apply ledger_ext
    · intro m t
      show Registry.registrations _ t m = if m = this ∧ t = ⟨event, []⟩ then _ else _
      by_cases hhere : m = this ∧ t = ⟨event, []⟩
      · rw [if_pos hhere, hhere.1, hhere.2, registrations_nil]
        show ((Module.eventCallbacks (if this = this then _ else _)).lookup event).getD [] = _
        rw [if_pos rfl, AList.lookup_insert]
        show _ = reg.registrations ⟨event, []⟩ this ++ _
        rw [registrations_nil]
        rfl
      · rw [if_neg hhere]
        exact hstep.registrations hhere
    · rfl
    · rfl
  · have hempty : ¬ identifier.isEmpty = true := fun h => hplain (List.isEmpty_iff.mp h)
    have hstep := identifiedStep_connect reg this event callback hempty
    by_cases hfree : reg.Accepts this ⟨event, identifier⟩
    · rw [if_pos hfree]
      rw [accepts_iff reg this event hplain] at hfree
      rw [connect, if_neg hempty] at hstep ⊢
      dsimp only at hstep ⊢
      rw [if_neg hfree] at hstep ⊢
      apply ledger_ext
      · intro m t
        show Registry.registrations _ t m =
          if m = this ∧ t = ⟨event, identifier⟩ then _ else _
        by_cases hevent : m = this ∧ t.event = event ∧ t.identifier ≠ []
        · obtain ⟨rfl, rfl, hidentifier⟩ := hevent
          obtain ⟨e, i⟩ := t
          rw [registrations_of_ne _ hidentifier]
          show (AList.lookup i (((Module.identifiedEventCallbacks
            (if m = m then _ else _)).lookup e).getD ∅)).toList = _
          rw [if_pos rfl, AList.lookup_insert, Option.getD_some]
          by_cases hi : i = identifier
          · subst hi
            rw [if_pos ⟨rfl, rfl⟩, AList.lookup_insert]
            show _ = reg.registrations ⟨e, i⟩ m ++ _
            rw [registrations_of_ne _ hidentifier, AList.lookup_eq_none.mpr hfree]
            rfl
          · rw [if_neg (fun heq => hi (Topic.mk.inj heq.2).2), AList.lookup_insert_ne hi]
            exact (registrations_of_ne _ hidentifier _ _).symm
        · rw [if_neg]
          · exact hstep.registrations hevent
          · rintro ⟨rfl, rfl⟩
            exact hevent ⟨rfl, rfl, hplain⟩
      · rfl
      · rfl
    · rw [if_neg hfree]
      rw [accepts_iff reg this event hplain, not_not] at hfree
      rw [connect, if_neg hempty]
      dsimp only
      rw [if_pos hfree]
      exact ledger_openEventMap reg this event

/-- The callbacks with one number are taken out, and the number is released
if that empties the list. -/
theorem ledger_disconnect (h : reg.Tidy) (callback : Int) (clearList : Bool) :
    (reg.disconnect this event callback clearList).ledger =
      (Entry.remove this ⟨event, []⟩ callback).post reg.ledger := by
  have hstep := plainStep_disconnect reg this event callback clearList
  have hheld := registrations_nil reg this event
  apply ledger_ext
  · intro m t
    show Registry.registrations _ t m = if m = this ∧ t = ⟨event, []⟩ then _ else _
    by_cases hhere : m = this ∧ t = ⟨event, []⟩
    · rw [if_pos hhere, hhere.1, hhere.2, registrations_nil]
      show _ = (reg.registrations ⟨event, []⟩ this).filter _
      rw [hheld]
      unfold disconnect
      dsimp only
      split
      · rename_i hnone
        rw [hnone]
        rfl
      · rename_i callbacks hcallbacks
        split
        · rename_i hnil
          show ((Module.eventCallbacks (if this = this then _ else _)).lookup event).getD [] = _
          rw [if_pos rfl, AList.lookup_erase, hcallbacks]
          exact (List.isEmpty_iff.mp hnil).symm
        · show ((Module.eventCallbacks (if this = this then _ else _)).lookup event).getD [] = _
          rw [if_pos rfl, AList.lookup_insert, hcallbacks]
          rfl
    · rw [if_neg hhere]
      exact hstep.registrations hhere
  · show (reg.disconnect this event callback clearList).released =
      if reg.registrations ⟨event, []⟩ this ≠ [] ∧
        (reg.registrations ⟨event, []⟩ this).filter (fun r => r.callback ≠ callback) = [] then
          callback :: reg.released
      else reg.released
    rw [hheld]
    unfold disconnect
    dsimp only
    cases hcallbacks : (reg.module this).eventCallbacks.lookup event with
    | none => rfl
    | some callbacks =>
        have hne : callbacks ≠ [] := by
          rintro rfl
          exact (h this).callbacks event hcallbacks
        dsimp only
        by_cases hnil : callbacks.filter (fun r => r.callback ≠ callback) = []
        · rw [if_pos (List.isEmpty_iff.mpr hnil), Option.getD_some, if_pos ⟨hne, hnil⟩]
          rfl
        · rw [if_neg (fun hempty => hnil (List.isEmpty_iff.mp hempty)), Option.getD_some,
            if_neg (fun hboth => hnil hboth.2)]
          rfl
  · unfold disconnect
    dsimp only
    show Registry.serial _ = reg.serial
    split
    · rfl
    · split <;> rfl

/-- A module without an entry for the event, or without the identifier in it,
has nothing to take out. -/
theorem takeOut_of_lookup_none {identifier : Identifier}
    (eventMap : AList (fun _ : Identifier => Registration))
    (hmap : ((reg.module this).identifiedEventCallbacks.lookup event).getD ∅ = eventMap)
    (hnone : eventMap.lookup identifier = none) :
    reg.takeOut this ⟨event, identifier⟩ = .nothing := by
  unfold takeOut
  split
  · rfl
  · rename_i hidentifier
    rw [registrations_of_ne reg hidentifier, hmap, hnone]
    rfl

/-- The callback of an identifier is taken out and released. -/
theorem ledger_disconnectIdentified (h : reg.Tidy) (identifier : Identifier) (clearList : Bool) :
    (reg.disconnectIdentified this event identifier clearList).ledger =
      (reg.takeOut this ⟨event, identifier⟩).post reg.ledger := by
  have hstep := identifiedStep_disconnectIdentified reg this event identifier clearList
  cases heventMap : (reg.module this).identifiedEventCallbacks.lookup event with
  | none =>
      rw [takeOut_of_lookup_none reg this event ∅ (by rw [heventMap]; rfl) rfl,
        disconnectIdentified]
      simp only [heventMap]
      rfl
  | some eventMap =>
      have hmap :
          ((reg.module this).identifiedEventCallbacks.lookup event).getD ∅ = eventMap := by
        rw [heventMap]
        rfl
      cases hr : eventMap.lookup identifier with
      | none =>
          rw [takeOut_of_lookup_none reg this event eventMap hmap hr, disconnectIdentified]
          simp only [heventMap, hr]
          rfl
      | some r =>
          have hidentifier : identifier ≠ [] := by
            rintro rfl
            apply (h this).identifiers event eventMap heventMap
            exact AList.lookup_isSome.mp (by rw [hr]; rfl)
          have hheld : reg.registrations ⟨event, identifier⟩ this = [r] := by
            rw [registrations_of_ne reg hidentifier, hmap, hr]
            rfl
          have htakeOut : reg.takeOut this ⟨event, identifier⟩ =
              .remove this ⟨event, identifier⟩ r.callback := by
            rw [takeOut, if_neg hidentifier, hheld]
            rfl
          have hleft : reg.ledger.left this ⟨event, identifier⟩ r.callback = [] := by
            show (reg.registrations ⟨event, identifier⟩ this).filter _ = []
            rw [hheld]
            simp
          have hmodule : (reg.disconnectIdentified this event identifier clearList).module this =
              { reg.module this with
                identifiedEventCallbacks :=
                  (reg.module this).identifiedEventCallbacks.insert event
                    (eventMap.erase identifier) } := by
            rw [disconnectIdentified]
            simp only [heventMap, hr]
            exact setModule_this this _
          rw [htakeOut]
          apply ledger_ext
          · intro m t
            show Registry.registrations _ t m =
              if m = this ∧ t = ⟨event, identifier⟩ then _ else _
            rw [hleft]
            by_cases hevent : m = this ∧ t.event = event ∧ t.identifier ≠ []
            · obtain ⟨rfl, rfl, hnonempty⟩ := hevent
              obtain ⟨e, i⟩ := t
              rw [registrations_of_ne _ hnonempty, hmodule, AList.lookup_insert, Option.getD_some]
              by_cases hi : i = identifier
              · subst hi
                rw [if_pos ⟨rfl, rfl⟩, AList.lookup_erase]
                rfl
              · rw [if_neg (fun heq => hi (Topic.mk.inj heq.2).2), AList.lookup_erase_ne hi,
                  ← hmap]
                exact (registrations_of_ne _ hnonempty _ _).symm
            · rw [if_neg]
              · exact hstep.registrations hevent
              · rintro ⟨rfl, rfl⟩
                exact hevent ⟨rfl, rfl, hidentifier⟩
          · show _ = if reg.ledger.Empties this ⟨event, identifier⟩ r.callback then _ else _
            rw [if_pos, disconnectIdentified]
            · simp only [heventMap, hr]
              rfl
            · refine ⟨?_, hleft⟩
              show reg.registrations ⟨event, identifier⟩ this ≠ []
              rw [hheld]
              exact List.cons_ne_nil _ _
          · rw [disconnectIdentified]
            simp only [heventMap, hr]
            rfl

/-- The marks `connectOnce` leaves are not in the ledger. -/
theorem ledger_marks {m : Module} (hplain : m.eventCallbacks = (reg.module this).eventCallbacks)
    (hidentified :
      m.identifiedEventCallbacks = (reg.module this).identifiedEventCallbacks) :
    (reg.setModule this m).ledger = reg.ledger := by
  apply ledger_ext
  · intro i t
    show (reg.setModule this m).registrations t i = reg.registrations t i
    by_cases hi : i = this
    · rw [hi, registrations_setModule_this, Registry.registrations, Module.registrations,
        Module.registrations, hplain, hidentified]
    · exact registrations_setModule reg this t m hi
  · rfl
  · rfl

section
variable (h : reg.Tidy) {m : Module}
  (hplain : m.eventCallbacks = (reg.module this).eventCallbacks)
  (hidentified : m.identifiedEventCallbacks = (reg.module this).identifiedEventCallbacks)
include h hplain hidentified

theorem ledger_marks_disconnect (callback : Int) :
    ((reg.setModule this m).disconnect this event callback true).ledger =
      (Entry.remove this ⟨event, []⟩ callback).post reg.ledger := by
  rw [ledger_disconnect _ this event (h.marks this hplain hidentified),
    ledger_marks reg this hplain hidentified]

theorem ledger_marks_disconnectIdentified (identifier : Identifier) :
    ((reg.setModule this m).disconnectIdentified this event identifier true).ledger =
      (reg.takeOut this ⟨event, identifier⟩).post reg.ledger := by
  have hledger := ledger_marks reg this hplain hidentified
  have hheld : (reg.setModule this m).registrations ⟨event, identifier⟩ this =
      reg.registrations ⟨event, identifier⟩ this :=
    congrFun (congrFun (congrArg Ledger.held hledger) this) ⟨event, identifier⟩
  rw [ledger_disconnectIdentified _ this event (h.marks this hplain hidentified), hledger,
    takeOut, hheld, takeOut]

end

theorem ledger_connectOnce (callback : Int) (identifier : Identifier) :
    (reg.connectOnce this event callback identifier).2.ledger =
      (reg.connect this event callback identifier).2.ledger := by
  unfold connectOnce
  generalize reg.connect this event callback identifier = result
  obtain ⟨success, reg'⟩ := result
  dsimp only
  split
  · split
    · exact ledger_marks reg' this rfl rfl
    · exact ledger_marks reg' this rfl rfl
  · rfl

end Registry

/-- Every operation posts its entry. -/
theorem Op.ledger (op : Op) {reg : Registry} (h : reg.Tidy) :
    (op.apply reg).ledger = (op.entry reg).post reg.ledger := by
  cases op with
  | connect this event callback identifier =>
      exact reg.ledger_connect this event callback identifier
  | connectOnce this event callback identifier =>
      exact (reg.ledger_connectOnce this event callback identifier).trans
        (reg.ledger_connect this event callback identifier)
  | disconnect this event callback clearList =>
      exact reg.ledger_disconnect this event h callback clearList
  | disconnectIdentified this event identifier clearList =>
      exact reg.ledger_disconnectIdentified this event h identifier clearList
  | checkConnectOnce this event callback =>
      show (reg.checkConnectOnce this event callback).ledger =
        (if callback ∈ (reg.module this).onceConnects then _ else _ : Entry).post _
      unfold Registry.checkConnectOnce
      dsimp only
      split
      · apply reg.ledger_marks_disconnect this event h <;> rfl
      · rfl
  | checkConnectOnceIdentified this event identifier =>
      show (reg.checkConnectOnceIdentified this event identifier).ledger =
        (if identifier ∈ _ then _ else _ : Entry).post _
      unfold Registry.checkConnectOnceIdentified
      dsimp only
      split
      · rename_i hnone
        rw [if_neg]
        · rfl
        · rw [hnone]
          exact List.not_mem_nil
      · rename_i identifiers hsome
        rw [hsome, Option.getD_some]
        split
        · apply reg.ledger_marks_disconnectIdentified this event h <;> rfl
        · rfl
  | openIdentifiedEvent event => rfl
  | openEventMap this event => exact reg.ledger_openEventMap this event
  | dropIdentifiedEvent event => rfl

theorem Op.registrations_apply (op : Op) {reg : Registry} (h : reg.Tidy) (m : ModuleId)
    (t : Topic) :
    (op.apply reg).registrations t m = ((op.entry reg).post reg.ledger).held m t :=
  congrFun (congrFun (congrArg Ledger.held (op.ledger h)) m) t

theorem Reachable.tidy {reg : Registry} (h : Reachable reg) : reg.Tidy :=
  h.preserves Registry.tidy_empty fun op _ htidy => op.tidy htidy

end LoginServer.Core
