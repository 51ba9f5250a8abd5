import LoginServer.Core.Subscriptions
import LoginServer.Verified.InOrderDelivery
import LoginServer.Verified.LiveVector

/-!
# `emitNoRet`, `luaEmit` and `emit`

The three functions run the same two loops and differ in what they do with
the results of a callback.  The loops are range-based, over the vector of the
modules of the event and, for a plain event, over the vector of the callbacks
of a module; both are the vectors of the registry itself, and a callback may
change them.  `module` is a reference into the first one and is read again
after the callback.

What a callback does is a parameter: the operations on the registry it and
the emits it makes perform, and what it returns.  A loop that reads a freed
vector is undefined and gives `none`.
-/

namespace LoginServer.Core

open LoginServer.Network (Bytes)
open LoginServer.Verified
open LoginServer.Verified.InOrderDelivery (Turn)

/-- A result of a callback, as `pushLuaResult` stores it in a `std::any`. -/
inductive LuaResult where
  | number (value : Int)
  | string (value : Bytes)
  | boolean (value : Bool)
  | other
  deriving DecidableEq, Repr

/-- What one invocation of a callback does to the registry, and its results;
`none` if the reference is not a function or the function raised an error. -/
structure Invocation where
  ops : List Op := []
  results : Option (List LuaResult) := some []

/-- What the invocations of one emit do, in order. -/
abbrev Behaviour := Nat → Invocation

/-- How many more elements fit into the vectors of a registry. -/
structure Spare where
  modules : Nat := 0
  callbacks : ModuleId → Nat := fun _ => 0

/-- A callback is invoked in the sandbox of `env`; the turn says which
registration it is, and which ones there are. -/
structure Call where
  env : ModuleId
  turn : Turn Nat

/-- The state of an emit: the registry, the storage the loops walk, and what
was done. -/
structure Walk (ρ : Type) where
  registry : Registry
  modules : LiveVector ModuleId
  /-- whose callbacks are walked -/
  walked : ModuleId := 0
  callbacks : LiveVector Registration := ⟨none, 0⟩
  results : ρ
  calls : List Call := []

section
variable {ρ : Type} (t : Topic) (spare : Spare) (behaviour : Behaviour)
  (collect : ρ → Option (List LuaResult) → ρ)

/-- The vector of the callbacks of a module, if there is one. -/
def Registry.callbackVector (reg : Registry) (t : Topic) (m : ModuleId) :
    Option (List Registration) :=
  (reg.module m).eventCallbacks.lookup t.event

/-- An operation, and what the loops see of it. -/
def Walk.apply (s : Walk ρ) (op : Op) : Walk ρ :=
  let registry := op.apply s.registry
  { s with
    registry
    modules := s.modules.follow (registry.subscribers t)
    callbacks := s.callbacks.follow (registry.callbackVector t s.walked) }

/-- `checkConnectOnce` as the loops call it. -/
def onceCheck (t : Topic) (module : ModuleId) (r : Registration) : Op :=
  if t.identifier.isEmpty then .checkConnectOnce module t.event r.callback
  else .checkConnectOnceIdentified module t.event t.identifier

/-- One invocation and the removal that follows it, in the `i`-th turn of the
loop over the modules. -/
def Walk.invoke (i : Nat) (r : Registration) (s : Walk ρ) : Option (Walk ρ) := do
  let env ← s.modules.read i
  let invocation := behaviour s.calls.length
  let call : Call := ⟨env, r.serial, (s.registry.view t).snapshot⟩
  let s := { s with calls := s.calls ++ [call] }
  let s := invocation.ops.foldl (Walk.apply t) s
  let s := { s with results := collect s.results invocation.results }
  let module ← s.modules.read i
  some (s.apply t (onceCheck t module r))

/-- `for (int32_t callback : module->getEventCallback(event))`, from the `j`-th
callback on. -/
def walkCallbacks (i : Nat) : (left j : Nat) → Walk ρ → Option (Walk ρ)
  | 0, _, s => some s
  | left + 1, j, s => do
      let r ← s.callbacks.read j
      let s ← s.invoke t behaviour collect i r
      walkCallbacks i left (j + 1) s

/-- `for (auto& module : modules)` of a plain event, from the `i`-th module on. -/
def walkModules : (left i : Nat) → Walk ρ → Option (Walk ρ)
  | 0, _, s => some s
  | left + 1, i, s => do
      let module ← s.modules.read i
      -- `getEventCallback` answers an empty vector of its own if there is none
      let callbacks := (s.registry.callbackVector t module).getD []
      let s :=
        { s with
          walked := module
          callbacks := .ofList callbacks (spare.callbacks module) }
      let s ← walkCallbacks t behaviour collect i callbacks.length 0 s
      walkModules left (i + 1) s

/-- `for (auto& module : modules)` of an event with identifier; `callback` is
the one that was called last. -/
def walkIdentified : (left i : Nat) → (callback : Int) → Walk ρ → Option (Walk ρ)
  | 0, _, _, s => some s
  | left + 1, i, callback, s => do
      let module ← s.modules.read i
      let s := s.apply t (.openEventMap module t.event)
      match (s.registry.registrations t module).head? with
      | none => walkIdentified left (i + 1) callback s
      | some r =>
          if r.callback ≠ callback then
            let s ← s.invoke t behaviour collect i r
            walkIdentified left (i + 1) r.callback s
          else walkIdentified left (i + 1) callback s

/-- What the three functions have in common. -/
def emitWith (results : ρ) (reg : Registry) : Option (Walk ρ) :=
  if t.identifier.isEmpty then
    match reg.subscribers t with
    | none => some { registry := reg, modules := ⟨none, 0⟩, results }
    | some modules =>
        walkModules t spare behaviour collect modules.length 0
          { registry := reg, modules := .ofList modules spare.modules, results }
  else
    let reg := reg.openIdentifiedEvent t.event
    let modules := (reg.subscribers t).getD []
    walkIdentified t behaviour collect modules.length 0 0
      { registry := reg, modules := .ofList modules spare.modules, results }

end

/-- `lua_pcall` gives exactly as many results as were asked for. -/
def adjustResults (nresults : Nat) (results : List LuaResult) : List LuaResult :=
  (results ++ List.replicate nresults LuaResult.other).take nresults

/-- `pushLuaResult`: the results from the top of the stack down, and then the
whole vector the other way round. -/
def pushLuaResult (nresults : Nat) (results vec : List LuaResult) : List LuaResult :=
  if nresults > 0 then (vec ++ (adjustResults nresults results).reverse).reverse else vec

/-- `ModuleManager::emitNoRet`. -/
def emitNoRet (t : Topic) (spare : Spare) (behaviour : Behaviour) (reg : Registry) :
    Option (Walk Unit) :=
  emitWith t spare behaviour (fun _ _ => ()) () reg

/-- `ModuleManager::emit`, with the vector it appends to. -/
def emit (t : Topic) (spare : Spare) (behaviour : Behaviour) (nresults : Nat)
    (vecRet : List LuaResult) (reg : Registry) : Option (Walk (List LuaResult)) :=
  emitWith t spare behaviour
    (fun vecRet results =>
      match results with
      | none => vecRet
      | some results => pushLuaResult nresults results vecRet)
    vecRet reg

/-- `anyCast<int>(vecRet, 0, 0)`. -/
def anyCastInt (vecRet : List LuaResult) : Int :=
  match vecRet with
  | .number value :: _ => value
  | _ => 0

/-- `ModuleManager::luaEmit`, with the least result. -/
def luaEmit (t : Topic) (spare : Spare) (behaviour : Behaviour) (reg : Registry) :
    Option (Walk Int) :=
  emitWith t spare behaviour
    (fun ret results =>
      match results with
      | none => ret
      | some results => min (anyCastInt (pushLuaResult 1 results [])) ret)
    0 reg

end LoginServer.Core
