import Mathlib.Data.List.AList
import LoginServer.Network.NetworkMessage

/-!
# Modules and their subscriptions

`Module` and `ModuleManager` as far as events are concerned: the callbacks a
module keeps for an event, and for an event and an identifier, and the lists
of modules the manager keeps for an event.  Both have to be kept in step by
`connect` and `disconnect`; nothing but their code does it.

A registration carries the number of the `connect` that made it, as a ghost,
because callbacks are Lua references and references are handed out again.
-/

namespace LoginServer.Core

open LoginServer.Network (Bytes)

abbrev EventName := Bytes
abbrev Identifier := Bytes

/-- A `Module*`. -/
abbrev ModuleId := Nat

/-- A callback as it is stored, and which `connect` stored it. -/
structure Registration where
  callback : Int
  serial : Nat
  deriving DecidableEq, Repr

structure Module where
  eventCallbacks : AList (fun _ : EventName => List Registration) := ∅
  identifiedEventCallbacks :
    AList (fun _ : EventName => AList (fun _ : Identifier => Registration)) := ∅
  onceConnects : List Int := []
  identifiedOnceConnects : AList (fun _ : EventName => List Identifier) := ∅

/-- The `ModuleManager`, the modules it points to, and two ghosts: the number
of the next `connect`, and the references given back by `luaL_unref`. -/
structure Registry where
  module : ModuleId → Module := fun _ => {}
  moduleEvents : AList (fun _ : EventName => List ModuleId) := ∅
  identifiedModuleEvents : AList (fun _ : EventName => List ModuleId) := ∅
  serial : Nat := 0
  released : List Int := []

namespace Registry

def setModule (reg : Registry) (this : ModuleId) (m : Module) : Registry :=
  { reg with module := fun i => if i = this then m else reg.module i }

/-- `find` and `push_back`. -/
def enlist (modules : List ModuleId) (this : ModuleId) : List ModuleId :=
  if this ∈ modules then modules else modules ++ [this]

/-- `Module::connect`. -/
def connect (reg : Registry) (this : ModuleId) (event : EventName) (callback : Int)
    (identifier : Identifier) : Bool × Registry :=
  let self := reg.module this
  let registration : Registration := ⟨callback, reg.serial⟩
  if identifier.isEmpty then
    let callbacks := (self.eventCallbacks.lookup event).getD [] ++ [registration]
    let modules := (reg.moduleEvents.lookup event).getD []
    let reg :=
      reg.setModule this
        { self with eventCallbacks := self.eventCallbacks.insert event callbacks }
    (true,
      { reg with
        moduleEvents := reg.moduleEvents.insert event (enlist modules this)
        serial := reg.serial + 1 })
  else
    let eventMap := (self.identifiedEventCallbacks.lookup event).getD ∅
    if identifier ∈ eventMap then
      (false,
        reg.setModule this
          { self with
            identifiedEventCallbacks := self.identifiedEventCallbacks.insert event eventMap })
    else
      let modules := (reg.identifiedModuleEvents.lookup event).getD []
      let reg :=
        reg.setModule this
          { self with
            identifiedEventCallbacks :=
              self.identifiedEventCallbacks.insert event (eventMap.insert identifier registration) }
      (true,
        { reg with
          identifiedModuleEvents := reg.identifiedModuleEvents.insert event (enlist modules this)
          serial := reg.serial + 1 })

/-- `Module::connectOnce`. -/
def connectOnce (reg : Registry) (this : ModuleId) (event : EventName) (callback : Int)
    (identifier : Identifier) : Bool × Registry :=
  let (success, reg) := reg.connect this event callback identifier
  if success then
    let self := reg.module this
    if identifier.isEmpty then
      (true, reg.setModule this { self with onceConnects := self.onceConnects ++ [callback] })
    else
      let connects := (self.identifiedOnceConnects.lookup event).getD []
      (true,
        reg.setModule this
          { self with
            identifiedOnceConnects :=
              self.identifiedOnceConnects.insert event (connects ++ [identifier]) })
  else (false, reg)

/-- The end of `Module::disconnect`: an event nobody listens to is dropped. -/
def clear (modules : AList (fun _ : EventName => List ModuleId)) (event : EventName)
    (clearList : Bool) : AList (fun _ : EventName => List ModuleId) :=
  if clearList ∧ modules.lookup event = some [] then modules.erase event else modules

/-- `Module::disconnect(event, callback, clearList)`. -/
def disconnect (reg : Registry) (this : ModuleId) (event : EventName) (callback : Int)
    (clearList : Bool) : Registry :=
  let self := reg.module this
  let reg :=
    match self.eventCallbacks.lookup event with
    | none => reg
    | some callbacks =>
        let callbacks := callbacks.filter fun (r : Registration) => r.callback ≠ callback
        if callbacks.isEmpty then
          let modules := ((reg.moduleEvents.lookup event).getD []).filter (· ≠ this)
          let reg :=
            reg.setModule this { self with eventCallbacks := self.eventCallbacks.erase event }
          { reg with
            moduleEvents := reg.moduleEvents.insert event modules
            released := callback :: reg.released }
        else
          reg.setModule this
            { self with eventCallbacks := self.eventCallbacks.insert event callbacks }
  { reg with moduleEvents := clear reg.moduleEvents event clearList }

/-- `Module::disconnect(event, identifier, clearList)`. -/
def disconnectIdentified (reg : Registry) (this : ModuleId) (event : EventName)
    (identifier : Identifier) (clearList : Bool) : Registry :=
  let self := reg.module this
  match self.identifiedEventCallbacks.lookup event with
  | none => reg
  | some eventMap =>
      let reg :=
        match eventMap.lookup identifier with
        | none => reg
        | some registration =>
            let modules := (reg.identifiedModuleEvents.lookup event).getD []
            let eventMap := eventMap.erase identifier
            let reg :=
              reg.setModule this
                { self with
                  identifiedEventCallbacks :=
                    self.identifiedEventCallbacks.insert event eventMap }
            { reg with
              identifiedModuleEvents :=
                reg.identifiedModuleEvents.insert event
                  (if eventMap.keys = [] then modules.filter (· ≠ this) else modules)
              released := registration.callback :: reg.released }
      { reg with identifiedModuleEvents := clear reg.identifiedModuleEvents event clearList }

/-- `ModuleManager::checkConnectOnce(module, event, callback)`. -/
def checkConnectOnce (reg : Registry) (this : ModuleId) (event : EventName)
    (callback : Int) : Registry :=
  let self := reg.module this
  if callback ∈ self.onceConnects then
    let reg :=
      reg.setModule this { self with onceConnects := self.onceConnects.erase callback }
    reg.disconnect this event callback true
  else reg

/-- `ModuleManager::checkConnectOnce(module, event, identifier)`. -/
def checkConnectOnceIdentified (reg : Registry) (this : ModuleId) (event : EventName)
    (identifier : Identifier) : Registry :=
  let self := reg.module this
  match self.identifiedOnceConnects.lookup event with
  | none => reg
  | some identifiers =>
      if identifier ∈ identifiers then
        let reg :=
          reg.setModule this
            { self with
              identifiedOnceConnects :=
                self.identifiedOnceConnects.insert event (identifiers.erase identifier) }
        reg.disconnectIdentified this event identifier true
      else reg

/-- `m_identifiedModuleEvents[event]`, which makes an entry if there is none. -/
def openIdentifiedEvent (reg : Registry) (event : EventName) : Registry :=
  { reg with
    identifiedModuleEvents :=
      reg.identifiedModuleEvents.insert event
        ((reg.identifiedModuleEvents.lookup event).getD []) }

/-- `module->m_identifiedEventCallbacks[event]`, likewise. -/
def openEventMap (reg : Registry) (this : ModuleId) (event : EventName) : Registry :=
  let self := reg.module this
  reg.setModule this
    { self with
      identifiedEventCallbacks :=
        self.identifiedEventCallbacks.insert event
          ((self.identifiedEventCallbacks.lookup event).getD ∅) }

/-- Erasing the entry of an event without modules, as `removeAllConnectionsById`
does after it has disconnected them. -/
def dropIdentifiedEvent (reg : Registry) (event : EventName) : Registry :=
  { reg with identifiedModuleEvents := clear reg.identifiedModuleEvents event true }

end Registry

/-- The ways the registry changes. -/
inductive Op where
  | connect (this : ModuleId) (event : EventName) (callback : Int) (identifier : Identifier)
  | connectOnce (this : ModuleId) (event : EventName) (callback : Int) (identifier : Identifier)
  | disconnect (this : ModuleId) (event : EventName) (callback : Int) (clearList : Bool)
  | disconnectIdentified (this : ModuleId) (event : EventName) (identifier : Identifier)
      (clearList : Bool)
  | checkConnectOnce (this : ModuleId) (event : EventName) (callback : Int)
  | checkConnectOnceIdentified (this : ModuleId) (event : EventName) (identifier : Identifier)
  | openIdentifiedEvent (event : EventName)
  | openEventMap (this : ModuleId) (event : EventName)
  | dropIdentifiedEvent (event : EventName)

def Op.apply : Op → Registry → Registry
  | .connect this event callback identifier, reg =>
      (reg.connect this event callback identifier).2
  | .connectOnce this event callback identifier, reg =>
      (reg.connectOnce this event callback identifier).2
  | .disconnect this event callback clearList, reg =>
      reg.disconnect this event callback clearList
  | .disconnectIdentified this event identifier clearList, reg =>
      reg.disconnectIdentified this event identifier clearList
  | .checkConnectOnce this event callback, reg => reg.checkConnectOnce this event callback
  | .checkConnectOnceIdentified this event identifier, reg =>
      reg.checkConnectOnceIdentified this event identifier
  | .openIdentifiedEvent event, reg => reg.openIdentifiedEvent event
  | .openEventMap this event, reg => reg.openEventMap this event
  | .dropIdentifiedEvent event, reg => reg.dropIdentifiedEvent event

/-- A registry the program can reach. -/
def Reachable (reg : Registry) : Prop :=
  ∃ ops : List Op, ops.foldl (fun reg op => op.apply reg) {} = reg

end LoginServer.Core
