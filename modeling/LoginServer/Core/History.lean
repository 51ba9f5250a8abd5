import LoginServer.Core.Emit
import LoginServer.Core.RegistryConsistency
import LoginServer.Verified.PartialRun

/-!
# Histories of connections and emits

One emit runs its two loops from begin to end, but not in one piece: a
callback may connect, disconnect and emit again, so loops over the same
vectors nest.  Here an emit is a frame on a stack, and what happens between
two callbacks is one event of a state machine, whose runs are the histories
of a `ModuleManager` and its modules.  The vectors of every frame follow the
registry, and a loop that reads a freed one has no next state.

The references `connect` was given, the registrations `connectOnce` made and
the registrations each emit invoked are recorded beside the state.

## Main results

* `step_eq_some` — what one event amounts to.
* `World.sameLoops_applyAll` — operations move no loop.
* `registry_consistent` — the manager and its modules agree after every event.
-/

namespace LoginServer.Core

open LoginServer.Network (Bytes)
open LoginServer.Verified

/-- An emit in progress. -/
structure EmitFrame where
  topic : Topic
  /-- which emit this is -/
  number : Nat
  modules : LiveVector ModuleId
  modulesEnd : Nat
  /-- how many modules the outer loop has reached -/
  entered : Nat := 0
  /-- whose callbacks the inner loop walks -/
  walked : ModuleId := 0
  callbacks : LiveVector Registration := ⟨none, 0⟩
  callbacksEnd : Nat := 0
  /-- how many of them it has reached -/
  reached : Nat := 0
  /-- the local `callback` of an emit with identifier -/
  callback : Int := 0
  /-- the callback that has not returned yet -/
  running : Option Registration := none

/-- The registry, the emits in progress, innermost first, and the records. -/
structure World where
  registry : Registry := {}
  frames : List EmitFrame := []
  emits : Nat := 0
  /-- the references `connect` and `connectOnce` were given -/
  taken : List Int := []
  /-- the registrations `connectOnce` has made -/
  once : List Nat := []
  /-- the emits and the registrations they invoked -/
  calls : List (Nat × Nat) := []

/-- The vectors of a loop after the registry has changed. -/
def EmitFrame.follow (f : EmitFrame) (reg : Registry) : EmitFrame :=
  { f with
    modules := f.modules.follow (reg.subscribers f.topic)
    callbacks := f.callbacks.follow (reg.callbackVector f.topic f.walked) }

def World.apply (w : World) (op : Op) : World :=
  let registry := op.apply w.registry
  { w with registry, frames := w.frames.map fun f => f.follow registry }

def World.applyAll (w : World) (ops : List Op) : World := ops.foldl World.apply w

/-- No loop is on its way to the next callback. -/
def World.Idle (w : World) : Prop :=
  match w.frames with
  | [] => True
  | f :: _ => f.running.isSome

instance (w : World) : Decidable w.Idle :=
  match h : w.frames with
  | [] => .isTrue (by rw [World.Idle, h]; trivial)
  | f :: _ => decidable_of_iff (f.running.isSome = true) (by rw [World.Idle, h])

/-- What can happen next. -/
inductive Event where
  /-- `luaModuleConnect`, which takes the reference before it has looked at
  the module -/
  | connect (this : Option ModuleId) (event : EventName) (callback : Int)
      (identifier : Identifier)
  | connectOnce (this : ModuleId) (event : EventName) (callback : Int)
      (identifier : Identifier)
  | disconnect (this : ModuleId) (event : EventName) (callback : Int) (clearList : Bool)
  | disconnectIdentified (this : ModuleId) (event : EventName) (identifier : Identifier)
      (clearList : Bool)
  /-- `Module::freeConnections`, with the orders in which it finds its keys -/
  | freeConnections (this : ModuleId) (events : List EventName)
      (identified : List (EventName × List Identifier))
  /-- `ModuleManager::removeAllConnectionsById`, likewise -/
  | removeAllConnectionsById (identifier : Identifier) (events : List EventName)
  /-- one of the emits begins; `spare` more modules fit into its vector -/
  | emit (t : Topic) (spare : Nat)
  /-- the innermost loop goes on -/
  | advance (spare : Nat)
  /-- the innermost callback returns -/
  | returned

/-! ## The operations of an event -/

/-- `Module::freeConnections`: what is connected is copied first, the plain
callbacks and then the identifiers, and disconnected from the copies. -/
def freeOps (reg : Registry) (this : ModuleId) (events : List EventName)
    (identified : List (EventName × List Identifier)) : List Op :=
  (events.flatMap fun event =>
    (((reg.module this).eventCallbacks.lookup event).getD []).map fun r =>
      .disconnect this event r.callback true) ++
  identified.flatMap fun entry =>
    entry.2.map fun identifier => .disconnectIdentified this entry.1 identifier true

/-- The orders in which hash maps may be walked. -/
def FreeOrder (reg : Registry) (this : ModuleId) (events : List EventName)
    (identified : List (EventName × List Identifier)) : Prop :=
  events.Perm (reg.module this).eventCallbacks.keys ∧
    (identified.map Prod.fst).Perm (reg.module this).identifiedEventCallbacks.keys ∧
    ∀ entry ∈ identified, entry.2.Perm
      (((reg.module this).identifiedEventCallbacks.lookup entry.1).getD ∅).keys

instance (reg : Registry) (this : ModuleId) (events : List EventName)
    (identified : List (EventName × List Identifier)) :
    Decidable (FreeOrder reg this events identified) :=
  inferInstanceAs (Decidable (_ ∧ _ ∧ _))

/-- `for (auto& module : modules)` of `removeAllConnectionsById`, over the
vector that `disconnect` takes the module out of. -/
def removeEach (event : EventName) (identifier : Identifier) :
    (left i : Nat) → LiveVector ModuleId → Registry → Option (List Op)
  | 0, _, _, _ => some []
  | left + 1, i, modules, reg => do
      let module ← modules.read i
      let op : Op := .disconnectIdentified module event identifier false
      let reg := op.apply reg
      let ops ← removeEach event identifier left (i + 1)
        (modules.follow (reg.identifiedModuleEvents.lookup event)) reg
      some (op :: ops)

/-- `ModuleManager::removeAllConnectionsById`, over the events it has yet to
visit. -/
def removeOps (identifier : Identifier) : List EventName → Registry → Option (List Op)
  | [], _ => some []
  | event :: events, reg => do
      let modules := (reg.identifiedModuleEvents.lookup event).getD []
      let ops ← removeEach event identifier modules.length 0 (.ofList modules 0) reg
      let ops := ops ++ [.dropIdentifiedEvent event]
      let rest ← removeOps identifier events (ops.foldl (fun reg op => op.apply reg) reg)
      some (ops ++ rest)

/-- The events that may happen in a state. -/
def Event.Possible (w : World) : Event → Prop
  | .connect .. => w.Idle
  | .connectOnce .. => w.Idle
  | .disconnect .. => w.Idle
  | .disconnectIdentified .. => w.Idle
  | .freeConnections this events identified =>
      w.Idle ∧ FreeOrder w.registry this events identified
  | .removeAllConnectionsById _ events =>
      w.Idle ∧ events.Perm w.registry.identifiedModuleEvents.keys
  | .emit .. => w.Idle
  | .advance _ => ¬ w.Idle
  | .returned => w.Idle

instance (w : World) : (event : Event) → Decidable (event.Possible w)
  | .connect .. => inferInstanceAs (Decidable w.Idle)
  | .connectOnce .. => inferInstanceAs (Decidable w.Idle)
  | .disconnect .. => inferInstanceAs (Decidable w.Idle)
  | .disconnectIdentified .. => inferInstanceAs (Decidable w.Idle)
  | .freeConnections this events identified =>
      inferInstanceAs (Decidable (_ ∧ FreeOrder w.registry this events identified))
  | .removeAllConnectionsById _ events =>
      inferInstanceAs (Decidable (_ ∧ events.Perm w.registry.identifiedModuleEvents.keys))
  | .emit .. => inferInstanceAs (Decidable w.Idle)
  | .advance _ => inferInstanceAs (Decidable (¬ w.Idle))
  | .returned => inferInstanceAs (Decidable w.Idle)

/-- What an event does to the registry. -/
def Event.ops (w : World) : Event → Option (List Op)
  | .connect none _ _ _ => some []
  | .connect (some this) event callback identifier =>
      some [.connect this event callback identifier]
  | .connectOnce this event callback identifier =>
      some [.connectOnce this event callback identifier]
  | .disconnect this event callback clearList =>
      some [.disconnect this event callback clearList]
  | .disconnectIdentified this event identifier clearList =>
      some [.disconnectIdentified this event identifier clearList]
  | .freeConnections this events identified =>
      some (freeOps w.registry this events identified)
  | .removeAllConnectionsById identifier events => removeOps identifier events w.registry
  | .emit t _ => some (if t.identifier.isEmpty then [] else [.openIdentifiedEvent t.event])
  | .advance _ =>
      match w.frames with
      | [] => none
      | f :: _ =>
          if f.topic.identifier.isEmpty ∨ f.modulesEnd ≤ f.entered then some []
          else (f.modules.read f.entered).map fun module => [.openEventMap module f.topic.event]
  | .returned =>
      match w.frames with
      | [] => none
      | f :: _ => do
          let r ← f.running
          let module ← f.modules.read (f.entered - 1)
          some [onceCheck f.topic module r]

/-! ## The loops -/

/-- A loop on its way to the next callback, or to its end. -/
def EmitFrame.advance (f : EmitFrame) (spare : Nat) (reg : Registry) :
    Option (Option EmitFrame) :=
  if f.reached < f.callbacksEnd then do
    -- `module->getSandboxEnv()` reads the outer vector again
    let _ ← f.modules.read (f.entered - 1)
    let r ← f.callbacks.read f.reached
    some (some { f with reached := f.reached + 1, running := some r })
  else if f.entered < f.modulesEnd then do
    let module ← f.modules.read f.entered
    let f := { f with entered := f.entered + 1 }
    if f.topic.identifier.isEmpty then
      let callbacks := (reg.callbackVector f.topic module).getD []
      some (some { f with
        walked := module
        callbacks := .ofList callbacks spare
        callbacksEnd := callbacks.length
        reached := 0 })
    else
      match (reg.registrations f.topic module).head? with
      | none => some (some f)
      | some r =>
          if r.callback ≠ f.callback then
            some (some { f with callback := r.callback, running := some r })
          else some (some f)
  else some none

/-- The frame an emit starts with. -/
def EmitFrame.start (t : Topic) (number spare : Nat) (modules : List ModuleId) : EmitFrame where
  topic := t
  number
  modules := .ofList modules spare
  modulesEnd := modules.length

/-- What an event does to the loops, after its operations. -/
def Event.control (w : World) : Event → Option World
  | .emit t spare =>
      let frames :=
        match w.registry.subscribers t with
        | none => w.frames
        | some modules => .start t w.emits spare modules :: w.frames
      some { w with frames, emits := w.emits + 1 }
  | .advance spare =>
      match w.frames with
      | [] => none
      | f :: frames =>
          (f.advance spare w.registry).map fun
            | none => { w with frames }
            | some f' =>
                { w with
                  frames := f' :: frames
                  calls := w.calls ++ (f'.running.map fun r => (f.number, r.serial)).toList }
  | .returned =>
      match w.frames with
      | [] => none
      | f :: frames => some { w with frames := { f with running := none } :: frames }
  | _ => some w

/-- What is recorded of an event before its operations. -/
def Event.record (w : World) : Event → World
  | .connect _ _ callback _ => { w with taken := callback :: w.taken }
  | .connectOnce this event callback identifier =>
      { w with
        taken := callback :: w.taken
        once :=
          if (w.registry.connect this event callback identifier).1 then
            w.registry.serial :: w.once
          else w.once }
  | _ => w

/-- One event; `none` when it cannot happen, or reads freed storage. -/
def step (event : Event) (w : World) : Option World := do
  guard (event.Possible w)
  let ops ← event.ops w
  event.control ((event.record w).applyAll ops)

theorem step_eq_some {event : Event} {w w' : World} (h : step event w = some w') :
    event.Possible w ∧ ∃ ops, event.ops w = some ops ∧
      event.control ((event.record w).applyAll ops) = some w' := by
  simp only [step, Option.bind_eq_bind, Option.bind_eq_some_iff] at h
  obtain ⟨_, hpossible, ops, hops, hcontrol⟩ := h
  exact ⟨PartialRun.of_guard_eq_some hpossible, ops, hops, hcontrol⟩

/-- The state after a history. -/
abbrev history (events : List Event) (w : World) : Option World :=
  PartialRun.run step events w

/-! ## What the operations of an event are -/

section
variable {w w' : World} {ops : List Op}

theorem mem_freeOps {reg : Registry} {this : ModuleId} {events : List EventName}
    {identified : List (EventName × List Identifier)} {op : Op}
    (hop : op ∈ freeOps reg this events identified) :
    (∃ event callback, op = .disconnect this event callback true) ∨
      ∃ event identifier, op = .disconnectIdentified this event identifier true := by
  unfold freeOps at hop
  rcases List.mem_append.mp hop with hop | hop
  · obtain ⟨event, -, hop⟩ := List.mem_flatMap.mp hop
    obtain ⟨r, -, rfl⟩ := List.mem_map.mp hop
    exact Or.inl ⟨event, r.callback, rfl⟩
  · obtain ⟨entry, -, hop⟩ := List.mem_flatMap.mp hop
    obtain ⟨identifier, -, rfl⟩ := List.mem_map.mp hop
    exact Or.inr ⟨entry.1, identifier, rfl⟩

theorem mem_removeEach {event : EventName} {identifier : Identifier} :
    ∀ {left i : Nat} {modules : LiveVector ModuleId} {reg : Registry} {ops : List Op},
      removeEach event identifier left i modules reg = some ops →
      ∀ op ∈ ops, ∃ module, op = .disconnectIdentified module event identifier false := by
  intro left
  induction left with
  | zero =>
      intro i modules reg ops h op hop
      cases h
      cases hop
  | succ left ih =>
      intro i modules reg ops h op hop
      simp only [removeEach, Option.bind_eq_bind, Option.bind_eq_some_iff] at h
      obtain ⟨module, -, rest, hrest, h⟩ := h
      cases h
      rcases List.mem_cons.mp hop with rfl | hop
      · exact ⟨module, rfl⟩
      · exact ih hrest op hop

theorem mem_removeOps {identifier : Identifier} :
    ∀ {events : List EventName} {reg : Registry} {ops : List Op},
      removeOps identifier events reg = some ops →
      ∀ op ∈ ops,
        (∃ module event, op = .disconnectIdentified module event identifier false) ∨
        ∃ event, op = .dropIdentifiedEvent event := by
  intro events
  induction events with
  | nil =>
      intro reg ops h op hop
      cases h
      cases hop
  | cons event events ih =>
      intro reg ops h op hop
      simp only [removeOps, Option.bind_eq_bind, Option.bind_eq_some_iff] at h
      obtain ⟨each, heach, rest, hrest, h⟩ := h
      cases h
      rcases List.mem_append.mp hop with hop | hop
      · rcases List.mem_append.mp hop with hop | hop
        · obtain ⟨module, rfl⟩ := mem_removeEach heach op hop
          exact Or.inl ⟨module, event, rfl⟩
        · exact Or.inr ⟨event, List.mem_singleton.mp hop⟩
      · exact ih hrest op hop

theorem Event.ops_advance {spare : Nat} (h : Event.ops w (.advance spare) = some ops) :
    ops = [] ∨ ∃ module event, ops = [.openEventMap module event] := by
  dsimp only [Event.ops] at h
  cases hframes : w.frames with
  | nil =>
      rw [hframes] at h
      cases h
  | cons f frames =>
      rw [hframes] at h
      dsimp only at h
      split at h
      · cases h
        exact Or.inl rfl
      · obtain ⟨module, -, rfl⟩ := Option.map_eq_some_iff.mp h
        exact Or.inr ⟨module, f.topic.event, rfl⟩

theorem Event.ops_returned (h : Event.ops w .returned = some ops) :
    ∃ f frames r module, w.frames = f :: frames ∧ f.running = some r ∧
      f.modules.read (f.entered - 1) = some module ∧ ops = [onceCheck f.topic module r] := by
  dsimp only [Event.ops] at h
  cases hframes : w.frames with
  | nil =>
      rw [hframes] at h
      cases h
  | cons f frames =>
      rw [hframes] at h
      simp only [Option.bind_eq_bind, Option.bind_eq_some_iff] at h
      obtain ⟨r, hr, module, hmodule, h⟩ := h
      cases h
      exact ⟨f, frames, r, module, rfl, hr, hmodule, rfl⟩

theorem Event.control_advance {spare : Nat} (h : Event.control w (.advance spare) = some w') :
    ∃ f frames next, w.frames = f :: frames ∧ f.advance spare w.registry = some next ∧
      w' = match next with
        | none => { w with frames }
        | some f' =>
            { w with
              frames := f' :: frames
              calls := w.calls ++ (f'.running.map fun r => (f.number, r.serial)).toList } := by
  dsimp only [Event.control] at h
  cases hframes : w.frames with
  | nil =>
      rw [hframes] at h
      cases h
  | cons f frames =>
      rw [hframes] at h
      obtain ⟨next, hnext, rfl⟩ := Option.map_eq_some_iff.mp h
      exact ⟨f, frames, next, rfl, hnext, rfl⟩

theorem Event.control_returned (h : Event.control w .returned = some w') :
    ∃ f frames, w.frames = f :: frames ∧
      w' = { w with frames := { f with running := none } :: frames } := by
  dsimp only [Event.control] at h
  cases hframes : w.frames with
  | nil =>
      rw [hframes] at h
      cases h
  | cons f frames =>
      rw [hframes] at h
      cases h
      exact ⟨f, frames, rfl, rfl⟩

end

/-! ## What the parts of a step leave alone -/

/-- The registry after a list of operations. -/
def Registry.applyAll (reg : Registry) (ops : List Op) : Registry :=
  ops.foldl (fun reg op => op.apply reg) reg

@[simp] theorem Registry.applyAll_cons (reg : Registry) (op : Op) (ops : List Op) :
    reg.applyAll (op :: ops) = (op.apply reg).applyAll ops := rfl

/-- What no operation of the registry changes in a loop. -/
def EmitFrame.label (f : EmitFrame) : Topic × Nat × Option Registration :=
  (f.topic, f.number, f.running)

/-- The emits in progress, without their loops. -/
def World.labels (w : World) : List (Topic × Nat × Option Registration) :=
  w.frames.map EmitFrame.label

/-- Two states that differ in their registries and in what the loops see. -/
structure World.SameLoops (w w' : World) : Prop where
  labels : w'.labels = w.labels
  emits : w'.emits = w.emits
  taken : w'.taken = w.taken
  once : w'.once = w.once
  calls : w'.calls = w.calls

theorem World.sameLoops_applyAll (w : World) (ops : List Op) : w.SameLoops (w.applyAll ops) := by
  induction ops generalizing w with
  | nil => exact ⟨rfl, rfl, rfl, rfl, rfl⟩
  | cons op ops ih =>
      have h := ih (w.apply op)
      refine ⟨h.labels.trans ?_, h.emits, h.taken, h.once, h.calls⟩
      simp only [World.labels, World.apply, List.map_map]
      rfl

theorem World.registry_applyAll (w : World) (ops : List Op) :
    (w.applyAll ops).registry = w.registry.applyAll ops := by
  induction ops generalizing w with
  | nil => rfl
  | cons op ops ih => exact ih (w.apply op)

theorem Event.record_registry (w : World) (event : Event) :
    (event.record w).registry = w.registry := by
  cases event <;> rfl

theorem Event.record_frames (w : World) (event : Event) :
    (event.record w).frames = w.frames := by
  cases event <;> rfl

/-- The loops are moved on last, and they change nothing else. -/
theorem Event.control_registry {event : Event} {w w' : World}
    (h : event.control w = some w') : w'.registry = w.registry := by
  unfold Event.control at h
  split at h
  · cases h
    rfl
  · split at h
    · cases h
    · obtain ⟨next, -, rfl⟩ := Option.map_eq_some_iff.mp h
      cases next <;> rfl
  · split at h
    · cases h
    · cases h
      rfl
  · cases h
    rfl

/-- The registry after the operations of an event and the step of its loop. -/
theorem Event.registry_of_control {event : Event} {w w' : World} {ops : List Op}
    (h : event.control ((event.record w).applyAll ops) = some w') :
    w'.registry = w.registry.applyAll ops := by
  rw [Event.control_registry h, World.registry_applyAll, Event.record_registry]

theorem Event.control_records {event : Event} {w w' : World}
    (h : event.control w = some w') : w'.taken = w.taken ∧ w'.once = w.once := by
  unfold Event.control at h
  split at h
  · cases h
    exact ⟨rfl, rfl⟩
  · split at h
    · cases h
    · obtain ⟨next, -, rfl⟩ := Option.map_eq_some_iff.mp h
      cases next <;> exact ⟨rfl, rfl⟩
  · split at h
    · cases h
    · cases h
      exact ⟨rfl, rfl⟩
  · cases h
    exact ⟨rfl, rfl⟩

/-- The records after an event. -/
theorem step_records {event : Event} {w w' : World} (h : step event w = some w') :
    w'.taken = (event.record w).taken ∧ w'.once = (event.record w).once := by
  obtain ⟨-, ops, -, hcontrol⟩ := step_eq_some h
  obtain ⟨htaken, honce⟩ := Event.control_records hcontrol
  have hsame := (event.record w).sameLoops_applyAll ops
  exact ⟨htaken.trans hsame.taken, honce.trans hsame.once⟩

/-- The registry after an event. -/
theorem step_registry {event : Event} {w w' : World} (h : step event w = some w') :
    ∃ ops, event.ops w = some ops ∧ w'.registry = w.registry.applyAll ops := by
  obtain ⟨-, ops, hops, hcontrol⟩ := step_eq_some h
  exact ⟨ops, hops, Event.registry_of_control hcontrol⟩

/-- What every operation preserves, a list of them preserves. -/
theorem Registry.applyAll_preserves {Inv : Registry → Prop}
    (hop : ∀ (op : Op) reg, Inv reg → Inv (op.apply reg)) (ops : List Op) :
    ∀ reg : Registry, Inv reg → Inv (reg.applyAll ops) := by
  induction ops with
  | nil => exact fun _ hreg => hreg
  | cons op ops ih => exact fun reg hreg => ih _ (hop op reg hreg)

theorem Registry.applyAll_append (reg : Registry) (ops ops' : List Op) :
    reg.applyAll (ops ++ ops') = (reg.applyAll ops).applyAll ops' :=
  List.foldl_append

/-- And so does every history. -/
theorem history_preserves {Inv : Registry → Prop}
    (hop : ∀ (op : Op) reg, Inv reg → Inv (op.apply reg)) {events : List Event} {w w' : World}
    (hw : Inv w.registry) (h : history events w = some w') : Inv w'.registry := by
  apply PartialRun.run_preserves (fun event u u' hu hstep => ?_) events w w' hw h
  obtain ⟨ops, -, hregistry⟩ := step_registry hstep
  show Inv u'.registry
  rw [hregistry]
  exact Registry.applyAll_preserves hop ops u.registry hu

/-- After every event of every history a module is listed once for the events
it has callbacks for and not for others, and an identifier has one callback. -/
theorem registry_consistent (events : List Event) (w : World)
    (h : history events {} = some w) : w.registry.Consistent :=
  history_preserves (fun op _ => op.consistent) Registry.consistent_empty h

/-- Two modules, an identifier that comes and goes, and an emit whose callback
disconnects the module after it. -/
def sampleHistory : List Event :=
  [.connect (some 0) [1] 7 [], .connect (some 1) [1] 8 [], .connectOnce 0 [1] 9 [2],
    .connectOnce 1 [1] 10 [2], .removeAllConnectionsById [2] [[1]], .emit ⟨[1], []⟩ 0,
    .advance 0, .advance 0, .disconnect 1 [1] 8 true, .returned, .advance 0, .advance 0,
    .freeConnections 0 [[1]] [([1], [])]]

theorem registry_consistent_sample :
    ∃ w, history sampleHistory {} = some w ∧ w.registry.Consistent := by
  have hruns : (history sampleHistory {}).isSome := by decide +kernel
  exact ⟨_, (Option.some_get hruns).symm, registry_consistent _ _ (Option.some_get hruns).symm⟩

end LoginServer.Core
