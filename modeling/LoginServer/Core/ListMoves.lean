import LoginServer.Core.History
import LoginServer.Core.RegistryConsistency
import LoginServer.Verified.Roster

/-!
# How the lists of the manager move

A module is in the list of an event from the first callback it connects to the
last one it disconnects; in between the lists do not move.  `Op.moves` reads
off an operation, and the maps of the module it is for, what it does to the
list of one event, and a script moves each list as its operations do one after
the other.

## Main results

* `Op.modulesFor_apply` — each operation, seen from one list.
* `modulesFor_applyAll` — the lists after a script.
-/

namespace LoginServer.Core

open LoginServer.Verified.Roster

/-- `m_moduleEvents` and `m_identifiedModuleEvents`. -/
inductive EventTable where
  | plain
  | identified
  deriving DecidableEq, Repr

/-- The table a connection with this identifier is in. -/
def EventTable.of (identifier : Identifier) : EventTable :=
  if identifier.isEmpty then .plain else .identified

/-- An empty list is dropped if the caller says so. -/
def dropMoves (clearList : Bool) (modules : Option (List ModuleId)) : List (Move ModuleId) :=
  if clearList ∧ modules = some [] then [.dropped] else []

namespace Registry

/-- The entry of an event in one of the tables. -/
def modulesFor (reg : Registry) (table : EventTable) (event : EventName) :
    Option (List ModuleId) :=
  match table with
  | .plain => reg.moduleEvents.lookup event
  | .identified => reg.identifiedModuleEvents.lookup event

/-- A module starts to listen, or is there already. -/
def connectMoves (reg : Registry) (table : EventTable) (event : EventName) (this : ModuleId) :
    List (Move ModuleId) :=
  if this ∈ (reg.modulesFor table event).getD [] then [.opened] else [.join this]

/-- A module stops to listen when its last callback goes. -/
def disconnectMoves (reg : Registry) (this : ModuleId) (event : EventName) (callback : Int)
    (clearList : Bool) : List (Move ModuleId) :=
  let moves : List (Move ModuleId) :=
    match (reg.module this).eventCallbacks.lookup event with
    | none => []
    | some callbacks => if ∀ r ∈ callbacks, r.callback = callback then [.leave this] else []
  moves ++ dropMoves clearList (replay moves (reg.modulesFor .plain event))

/-- The same for an identifier; an event of which the module has no map is left
alone. -/
def disconnectIdentifiedMoves (reg : Registry) (this : ModuleId) (event : EventName)
    (identifier : Identifier) (clearList : Bool) : List (Move ModuleId) :=
  match (reg.module this).identifiedEventCallbacks.lookup event with
  | none => []
  | some eventMap =>
      let moves : List (Move ModuleId) :=
        if identifier ∈ eventMap then
          if eventMap.keys = [identifier] then [.leave this] else [.opened]
        else []
      moves ++ dropMoves clearList (replay moves (reg.modulesFor .identified event))

/-- `connect` does not refuse the identifier. -/
def Takes (reg : Registry) (this : ModuleId) (event : EventName) (identifier : Identifier) :
    Prop :=
  identifier.isEmpty = true ∨
    identifier ∉ ((reg.module this).identifiedEventCallbacks.lookup event).getD ∅

instance (reg : Registry) (this : ModuleId) (event : EventName) (identifier : Identifier) :
    Decidable (reg.Takes this event identifier) :=
  inferInstanceAs (Decidable (_ ∨ _))

end Registry

/-- What an operation does to the list of one event. -/
def Op.moves (reg : Registry) (table : EventTable) (event : EventName) :
    Op → List (Move ModuleId)
  | .connect this e _ identifier =>
      if table = .of identifier ∧ event = e ∧ reg.Takes this e identifier then
        reg.connectMoves table event this
      else []
  | .connectOnce this e _ identifier =>
      if table = .of identifier ∧ event = e ∧ reg.Takes this e identifier then
        reg.connectMoves table event this
      else []
  | .disconnect this e callback clearList =>
      if table = .plain ∧ event = e then reg.disconnectMoves this e callback clearList else []
  | .disconnectIdentified this e identifier clearList =>
      if table = .identified ∧ event = e then
        reg.disconnectIdentifiedMoves this e identifier clearList
      else []
  | .checkConnectOnce this e callback =>
      if table = .plain ∧ event = e ∧ callback ∈ (reg.module this).onceConnects then
        reg.disconnectMoves this e callback true
      else []
  | .checkConnectOnceIdentified this e identifier =>
      if table = .identified ∧ event = e ∧
          identifier ∈ ((reg.module this).identifiedOnceConnects.lookup e).getD [] then
        reg.disconnectIdentifiedMoves this e identifier true
      else []
  | .openIdentifiedEvent e => if table = .identified ∧ event = e then [.opened] else []
  | .openEventMap _ _ => []
  | .dropIdentifiedEvent e =>
      if table = .identified ∧ event = e then dropMoves true (reg.modulesFor .identified e)
      else []

namespace Registry

variable (reg : Registry) (this : ModuleId) (event : EventName)

/-- Dropping an empty list. -/
theorem lookup_clear (modules : AList (fun _ : EventName => List ModuleId))
    (clearList : Bool) :
    (clear modules event clearList).lookup event =
      replay (dropMoves clearList (modules.lookup event)) (modules.lookup event) := by
  unfold clear dropMoves
  split
  · exact AList.lookup_erase event modules
  · rfl

/-- Who connects is put at the end, unless it is in the list. -/
theorem enlist_eq_replay (table : EventTable) :
    some (enlist ((reg.modulesFor table event).getD []) this) =
      replay (reg.connectMoves table event this) (reg.modulesFor table event) := by
  unfold enlist connectMoves
  split <;> rfl

section
variable {reg}

/-- A list that the operation is not for. -/
theorem PlainStep.modulesFor {reg' : Registry} (h : PlainStep reg reg' this event)
    {table : EventTable} {e : EventName} (hother : ¬ (table = .plain ∧ e = event)) :
    reg'.modulesFor table e = reg.modulesFor table e := by
  cases table with
  | plain => exact h.events e fun he => hother ⟨rfl, he⟩
  | identified =>
      show reg'.identifiedModuleEvents.lookup e = _
      rw [h.identifiedEvents]
      rfl

theorem IdentifiedStep.modulesFor {reg' : Registry} (h : IdentifiedStep reg reg' this event)
    {table : EventTable} {e : EventName} (hother : ¬ (table = .identified ∧ e = event)) :
    reg'.modulesFor table e = reg.modulesFor table e := by
  cases table with
  | plain =>
      show reg'.moduleEvents.lookup e = _
      rw [h.plainEvents]
      rfl
  | identified => exact h.events e fun he => hother ⟨rfl, he⟩

end

/-- A callback is connected. -/
theorem modulesFor_connect (table : EventTable) (e : EventName) (callback : Int)
    (identifier : Identifier) :
    (reg.connect this event callback identifier).2.modulesFor table e =
      replay (if table = .of identifier ∧ e = event ∧ reg.Takes this event identifier then
          reg.connectMoves table e this
        else [])
        (reg.modulesFor table e) := by
  by_cases hplain : identifier.isEmpty = true
  · have hof : EventTable.of identifier = .plain := if_pos hplain
    rw [hof]
    by_cases htarget : table = .plain ∧ e = event
    · obtain ⟨rfl, rfl⟩ := htarget
      rw [if_pos ⟨rfl, rfl, Or.inl hplain⟩, ← enlist_eq_replay, connect, if_pos hplain]
      exact AList.lookup_insert reg.moduleEvents
    · rw [if_neg fun hall => htarget ⟨hall.1, hall.2.1⟩]
      exact (plainStep_connect reg this event callback hplain).modulesFor this event htarget
  · have hof : EventTable.of identifier = .identified := if_neg hplain
    rw [hof]
    by_cases htarget : table = .identified ∧ e = event
    · obtain ⟨rfl, rfl⟩ := htarget
      by_cases hused :
        identifier ∈ ((reg.module this).identifiedEventCallbacks.lookup e).getD ∅
      · have hrefused : ¬ reg.Takes this e identifier :=
          fun htakes => htakes.elim hplain fun hfree => hfree hused
        rw [if_neg fun hall => hrefused hall.2.2, connect, if_neg hplain]
        dsimp only
        rw [if_pos hused]
        rfl
      · rw [if_pos ⟨rfl, rfl, Or.inr hused⟩, ← enlist_eq_replay, connect, if_neg hplain]
        dsimp only
        rw [if_neg hused]
        exact AList.lookup_insert reg.identifiedModuleEvents
    · rw [if_neg fun hall => htarget ⟨hall.1, hall.2.1⟩]
      exact (identifiedStep_connect reg this event callback hplain).modulesFor this event htarget

/-- The mark of `connectOnce` is not in the lists. -/
theorem modulesFor_connectOnce (table : EventTable) (e : EventName) (callback : Int)
    (identifier : Identifier) :
    (reg.connectOnce this event callback identifier).2.modulesFor table e =
      (reg.connect this event callback identifier).2.modulesFor table e := by
  unfold connectOnce
  generalize reg.connect this event callback identifier = result
  obtain ⟨success, connected⟩ := result
  cases success with
  | false => cases table <;> rfl
  | true =>
      dsimp only
      rw [if_pos rfl]
      split <;> cases table <;> rfl

/-- All callbacks with the number are taken out. -/
theorem modulesFor_disconnect (table : EventTable) (e : EventName) (callback : Int)
    (clearList : Bool) :
    (reg.disconnect this event callback clearList).modulesFor table e =
      replay (if table = .plain ∧ e = event then
          reg.disconnectMoves this event callback clearList
        else [])
        (reg.modulesFor table e) := by
  by_cases htarget : table = .plain ∧ e = event
  · obtain ⟨rfl, rfl⟩ := htarget
    rw [if_pos ⟨rfl, rfl⟩]
    show (reg.disconnect this e callback clearList).moduleEvents.lookup e = _
    unfold disconnect disconnectMoves
    dsimp only
    rw [lookup_clear, replay_append]
    cases (reg.module this).eventCallbacks.lookup e with
    | none => rfl
    | some callbacks =>
        dsimp only
        by_cases hlast : ∀ r ∈ callbacks, r.callback = callback
        · have hnone :
              (callbacks.filter fun r => decide (r.callback ≠ callback)).isEmpty = true := by
            simpa using hlast
          rw [if_pos hnone, if_pos hlast]
          dsimp only
          rw [AList.lookup_insert]
          rfl
        · have hsome : ¬ (callbacks.filter fun r => decide (r.callback ≠ callback)).isEmpty =
              true := by
            simpa using hlast
          rw [if_neg hsome, if_neg hlast]
          rfl
  · rw [if_neg htarget]
    exact (plainStep_disconnect reg this event callback clearList).modulesFor this event htarget

/-- The callback of an identifier is taken out. -/
theorem modulesFor_disconnectIdentified (table : EventTable) (e : EventName)
    (identifier : Identifier) (clearList : Bool) :
    (reg.disconnectIdentified this event identifier clearList).modulesFor table e =
      replay (if table = .identified ∧ e = event then
          reg.disconnectIdentifiedMoves this event identifier clearList
        else [])
        (reg.modulesFor table e) := by
  by_cases htarget : table = .identified ∧ e = event
  · obtain ⟨rfl, rfl⟩ := htarget
    rw [if_pos ⟨rfl, rfl⟩]
    show (reg.disconnectIdentified this e identifier clearList).identifiedModuleEvents.lookup e = _
    unfold disconnectIdentified disconnectIdentifiedMoves
    dsimp only
    cases (reg.module this).identifiedEventCallbacks.lookup e with
    | none => rfl
    | some eventMap =>
        dsimp only
        rw [lookup_clear, replay_append]
        cases hlookup : eventMap.lookup identifier with
        | none =>
            rw [if_neg (AList.lookup_eq_none.mp hlookup)]
            rfl
        | some registration =>
            have hmem : identifier ∈ eventMap :=
              AList.lookup_isSome.mp (Option.isSome_of_eq_some hlookup)
            rw [if_pos hmem]
            dsimp only
            rw [AList.lookup_insert]
            simp only [keys_erase_eq_nil_iff hmem]
            split <;> rfl
  · rw [if_neg htarget]
    exact (identifiedStep_disconnectIdentified reg this event identifier clearList).modulesFor
      this event htarget

/-- Taking a mark away shows in no list. -/
theorem modulesFor_setModule (m : Module) (table : EventTable) (e : EventName) :
    (reg.setModule this m).modulesFor table e = reg.modulesFor table e := by
  cases table <;> rfl

/-- Nor does it change what the next call moves. -/
theorem disconnectMoves_setModule {m : Module}
    (h : m.eventCallbacks = (reg.module this).eventCallbacks) (callback : Int)
    (clearList : Bool) :
    (reg.setModule this m).disconnectMoves this event callback clearList =
      reg.disconnectMoves this event callback clearList := by
  unfold disconnectMoves
  rw [setModule_this, h, modulesFor_setModule]

theorem disconnectIdentifiedMoves_setModule {m : Module}
    (h : m.identifiedEventCallbacks = (reg.module this).identifiedEventCallbacks)
    (identifier : Identifier) (clearList : Bool) :
    (reg.setModule this m).disconnectIdentifiedMoves this event identifier clearList =
      reg.disconnectIdentifiedMoves this event identifier clearList := by
  unfold disconnectIdentifiedMoves
  rw [setModule_this, h, modulesFor_setModule]

theorem modulesFor_checkConnectOnce (table : EventTable) (e : EventName) (callback : Int) :
    (reg.checkConnectOnce this event callback).modulesFor table e =
      replay (if table = .plain ∧ e = event ∧ callback ∈ (reg.module this).onceConnects then
          reg.disconnectMoves this event callback true
        else [])
        (reg.modulesFor table e) := by
  unfold checkConnectOnce
  by_cases hmarked : callback ∈ (reg.module this).onceConnects
  · have hmoves := disconnectMoves_setModule reg this event (m := { reg.module this with
      onceConnects := (reg.module this).onceConnects.erase callback }) rfl callback true
    rw [if_pos hmarked, modulesFor_disconnect, modulesFor_setModule, hmoves]
    simp only [hmarked, and_true]
  · rw [if_neg hmarked, if_neg fun hall => hmarked hall.2.2]
    rfl

theorem modulesFor_checkConnectOnceIdentified (table : EventTable) (e : EventName)
    (identifier : Identifier) :
    (reg.checkConnectOnceIdentified this event identifier).modulesFor table e =
      replay (if table = .identified ∧ e = event ∧
            identifier ∈ ((reg.module this).identifiedOnceConnects.lookup event).getD [] then
          reg.disconnectIdentifiedMoves this event identifier true
        else [])
        (reg.modulesFor table e) := by
  unfold checkConnectOnceIdentified
  dsimp only
  cases hnotes : (reg.module this).identifiedOnceConnects.lookup event with
  | none => simp
  | some identifiers =>
      dsimp only
      rw [Option.getD_some]
      by_cases hmarked : identifier ∈ identifiers
      · have hmoves := disconnectIdentifiedMoves_setModule reg this event
          (m := { reg.module this with
            identifiedOnceConnects := (reg.module this).identifiedOnceConnects.insert event
              (identifiers.erase identifier) }) rfl identifier true
        rw [if_pos hmarked, modulesFor_disconnectIdentified, modulesFor_setModule, hmoves]
        simp only [hmarked, and_true]
      · rw [if_neg hmarked, if_neg fun hall => hmarked hall.2.2]
        rfl

/-- `operator[]` makes an entry. -/
theorem modulesFor_openIdentifiedEvent (table : EventTable) (e : EventName) :
    (reg.openIdentifiedEvent event).modulesFor table e =
      replay (if table = .identified ∧ e = event then [.opened] else [])
        (reg.modulesFor table e) := by
  cases table with
  | plain => rfl
  | identified =>
      show (AList.insert event _ reg.identifiedModuleEvents).lookup e = _
      by_cases he : e = event
      · subst he
        rw [if_pos ⟨rfl, rfl⟩, AList.lookup_insert]
        rfl
      · rw [if_neg fun hall => he hall.2, AList.lookup_insert_ne he]
        rfl

theorem modulesFor_dropIdentifiedEvent (table : EventTable) (e : EventName) :
    (reg.dropIdentifiedEvent event).modulesFor table e =
      replay (if table = .identified ∧ e = event then
          dropMoves true (reg.modulesFor .identified event)
        else [])
        (reg.modulesFor table e) := by
  cases table with
  | plain => rfl
  | identified =>
      show (clear reg.identifiedModuleEvents event true).lookup e = _
      by_cases he : e = event
      · subst he
        rw [if_pos ⟨rfl, rfl⟩]
        exact lookup_clear e reg.identifiedModuleEvents true
      · rw [if_neg fun hall => he hall.2]
        exact clear_lookup_ne event _ true he

end Registry

/-- Every operation moves every list as `Op.moves` says. -/
theorem Op.modulesFor_apply (op : Op) (reg : Registry) (table : EventTable) (event : EventName) :
    (op.apply reg).modulesFor table event =
      replay (op.moves reg table event) (reg.modulesFor table event) := by
  cases op with
  | connect this e callback identifier =>
      exact reg.modulesFor_connect this e table event callback identifier
  | connectOnce this e callback identifier =>
      exact (reg.modulesFor_connectOnce this e table event callback identifier).trans
        (reg.modulesFor_connect this e table event callback identifier)
  | disconnect this e callback clearList =>
      exact reg.modulesFor_disconnect this e table event callback clearList
  | disconnectIdentified this e identifier clearList =>
      exact reg.modulesFor_disconnectIdentified this e table event identifier clearList
  | checkConnectOnce this e callback =>
      exact reg.modulesFor_checkConnectOnce this e table event callback
  | checkConnectOnceIdentified this e identifier =>
      exact reg.modulesFor_checkConnectOnceIdentified this e table event identifier
  | openIdentifiedEvent e => exact reg.modulesFor_openIdentifiedEvent e table event
  | openEventMap this e => exact reg.modulesFor_setModule this _ table event
  | dropIdentifiedEvent e => exact reg.modulesFor_dropIdentifiedEvent e table event

/-- The moves of a script, each read off the registry its operation finds. -/
def listMoves (table : EventTable) (event : EventName) :
    Registry → List Op → List (Move ModuleId)
  | _, [] => []
  | reg, op :: ops => op.moves reg table event ++ listMoves table event (op.apply reg) ops

/-- The lists after a script. -/
theorem modulesFor_applyAll (table : EventTable) (event : EventName) (ops : List Op)
    (reg : Registry) :
    (reg.applyAll ops).modulesFor table event =
      replay (listMoves table event reg ops) (reg.modulesFor table event) := by
  induction ops generalizing reg with
  | nil => rfl
  | cons op ops ih =>
      rw [Registry.applyAll_cons, ih, op.modulesFor_apply, listMoves, replay_append]

end LoginServer.Core
