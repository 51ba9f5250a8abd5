import LoginServer.Core.FreeConnections
import LoginServer.Core.ModuleLoader

/-!
# Calls into Lua

The four `internalCallLuaField` routines of `lua.h` push the table of the
arguments and the function, call it in protected mode, and pop by counted
amounts on three ways out.  A call for a module puts its sandbox into force
first, and only the way out of a successful call resets the environment.

A function that is called may come back: `emit` calls callbacks of its own, in
a frame that holds what was passed to it, with `internalCallLuaFieldRef`.

## Main results

* `internalCall_other`, `internalCall_function` — the ways out of a call.
* `Body.run_eq` — what a function does to the environment, nested calls included.
-/

namespace LoginServer.Script

open LoginServer.Core
open LoginServer.Network (Bytes)

/-! ## The Lua state -/

/-- `m_luaState` as a routine sees it: the height of its frame, and the table
for global names. -/
structure LuaState where
  top : Nat := 0
  environment : Environment := .global
  deriving DecidableEq, Repr

namespace LuaState

def push (L : LuaState) (n : Nat := 1) : LuaState := { L with top := L.top + n }

/-- `lua_pop`; it has no meaning below the frame. -/
def pop (L : LuaState) (n : Nat := 1) : Option LuaState :=
  if n ≤ L.top then some { L with top := L.top - n } else none

/-- The assertion of `checkStack`. -/
def checkStack (L : LuaState) : Option LuaState := if L.top ≤ 20 then some L else none

def pushThread (L : LuaState) : Option LuaState := L.push.checkStack

def setGlobalEnvironment (L : LuaState) (env : Environment) : Option LuaState := do
  let L ← L.pushThread
  -- `getRef(env)`, which `lua_setfenv` pops
  let L := L.push
  let L ← { L with environment := env }.pop
  L.pop

/-- `m_globalEnv` is there before any module has a sandbox. -/
def resetGlobalEnvironment (L : LuaState) : Option LuaState := L.setGlobalEnvironment .global

/-- `lua_createtable`, and a `lua_setfield` for each argument; every
`LuaStack::Push` pushes one slot. -/
def pushArguments (names : List Bytes) (L : LuaState) : Option LuaState :=
  names.foldlM (fun L _ => L.push.pop) L.push

/-- What `pushLuaResult` pops; `none` is `LUA_MULTRET`. -/
def pushLuaResult (L : LuaState) : Option Nat → Option LuaState
  | some results => L.pop results
  | none => some L

end LuaState

/-- How a function ends: with results, or with an error, as `lua_tostring`
reads it. -/
inductive Outcome where
  | returned (results : Nat)
  | raised (message : Option Bytes)
  deriving DecidableEq, Repr

/-- A function, as the change it makes to the environment. -/
abbrev LuaFunction := Environment → Option (Outcome × Environment)

namespace LuaState

/-- `lua_pcall` with one argument. -/
def pcall (L : LuaState) (function : LuaFunction) (nresults : Option Nat) :
    Option (Outcome × LuaState) := do
  let L ← L.pop 2
  let (outcome, environment) ← function L.environment
  let L := { L with environment }
  match outcome with
  | .returned results => some (outcome, L.push (nresults.getD results))
  | .raised _ => some (outcome, L.push)

/-- `reportError` makes a `std::string` of what `lua_tostring` gave, and there is
none of a null pointer.  `getStackTrace` pops all that it pushes. -/
def reportError (L : LuaState) (message : Option Bytes) : Option LuaState :=
  message.map fun _ => L

/-! ## The four routines -/

/-- `if (sandboxEnv > 0) setGlobalEnvironment(sandboxEnv)`; `none` is a number
that is not positive. -/
def enterSandbox (L : LuaState) : Option ModuleId → Option LuaState
  | some module => L.setGlobalEnvironment (.sandbox module)
  | none => some L

/-- `if (sandboxEnv > 0) resetGlobalEnvironment()`. -/
def leaveSandbox (L : LuaState) : Option ModuleId → Option LuaState
  | some _ => L.resetGlobalEnvironment
  | none => some L

/-- The routine that is there four times.  The copies differ in the table they
push, in the results, and in what they pop when there is no function. -/
def internalCall (pushTable : LuaState → Option LuaState) (popped : Nat)
    (nresults : Option Nat) (function : Environment → Option LuaFunction)
    (sandboxEnv : Option ModuleId) (L : LuaState) : Option LuaState := do
  let L ← L.enterSandbox sandboxEnv
  let L ← pushTable L
  let L := L.push
  match function L.environment with
  | none => L.pop popped
  | some f =>
      let L := L.push
      match ← L.pcall f nresults with
      | (.raised message, L) =>
          let L ← L.reportError message
          L.pop 2
      | (.returned _, L) =>
          let L ← L.pushLuaResult nresults
          let L ← L.pop
          L.leaveSandbox sandboxEnv

/-- `getRef(tableRef)`. -/
def getRef (L : LuaState) : Option LuaState := some L.push

def internalCallLuaField (function : Environment → Option LuaFunction) (nresults : Option Nat)
    (sandboxEnv : Option ModuleId) (args : List Bytes) : LuaState → Option LuaState :=
  internalCall (pushArguments args) 1 nresults function sandboxEnv

def internalCallLuaFieldRef (function : Environment → Option LuaFunction)
    (nresults : Option Nat) (sandboxEnv : Option ModuleId) : LuaState → Option LuaState :=
  internalCall getRef 2 nresults function sandboxEnv

def internalCallLuaFieldNoRetRef (function : Environment → Option LuaFunction)
    (sandboxEnv : Option ModuleId) : LuaState → Option LuaState :=
  internalCall getRef 2 (some 0) function sandboxEnv

def internalCallLuaFieldNoRet (function : Environment → Option LuaFunction)
    (sandboxEnv : Option ModuleId) (args : List Bytes) : LuaState → Option LuaState :=
  internalCall (pushArguments args) 2 (some 0) function sandboxEnv

end LuaState

/-! ## Exports -/

/-- What `exportLua` works on: the exports of the modules, and the tables of the
global `g_modules`, if that is a table. -/
structure Exporting where
  lua : LuaState := {}
  moduleExports : ModuleExports := ∅
  gModules : Option (AList fun _ : Bytes => AList fun _ : ExportName => Int) := some ∅
  /-- given back with `luaL_unref` -/
  released : List Int := []

/-- `moduleExports[this]`, which is made where it is missing. -/
def Exporting.exports (s : Exporting) (this : ModuleId) : AList fun _ : ExportName => Int :=
  (s.moduleExports.lookup this).getD ∅

/-- `Module::exportLua`, for the module `this` of the given `m_name`. -/
def exportLua (this : ModuleId) (m_name : Bytes) (name : ExportName) (ref : Int)
    (s : Exporting) : Option (Bool × Exporting) := do
  let exports := s.exports this
  if name ∈ exports then
    some (false, { s with released := s.released ++ [ref] })
  else
    -- `g_modules`
    let L := s.lua.push
    match s.gModules with
    | none =>
        let L ← L.pop
        some (false, { s with
          lua := L
          moduleExports := s.moduleExports.insert this exports
          released := s.released ++ [ref] })
    | some tables =>
        let moduleExports := s.moduleExports.insert this (exports.insert name ref)
        -- its field for the module
        let L := L.push
        match tables.lookup m_name with
        | none =>
            let L ← L.pop
            -- the new table, and the reference
            let L := L.push
            let L := L.push
            let L ← L.pop
            let L ← L.pop
            let L ← L.pop 2
            let tables := tables.insert m_name (AList.singleton name ref)
            some (true, { s with lua := L, moduleExports, gModules := some tables })
        | some table =>
            let L := L.push
            let L ← L.pop
            let L ← L.pop 2
            let tables := tables.insert m_name (table.insert name ref)
            some (true, { s with lua := L, moduleExports, gModules := some tables })

/-! ## What is called -/

mutual

/-- What a reference or a name stands for. -/
inductive Callable where
  | other
  | function (body : Body)

/-- What a function does until it is over. -/
inductive Body where
  | returns (results : Nat)
  | raises (message : Option Bytes)
  /-- `emit`, with so many arguments -/
  | emit (arguments : Nat) (callbacks : Callbacks) (rest : Body)

/-- The callbacks that an event reaches, each with its module. -/
inductive Callbacks where
  | nil
  | cons (module : ModuleId) (callback : Callable) (rest : Callbacks)

end

/-- The frame of `LuaScript::luaEmit`, after it has taken its arguments. -/
def luaEmitFrame (arguments : Nat) (environment : Environment) : Option LuaState := do
  let L : LuaState := { top := arguments, environment }
  let L ← if arguments > 2 then L.pop else some L
  -- `ref(L)` pops the table, `LuaStack::Pop` the event
  let L ← L.pop
  L.pop

mutual

def Callable.toFunction : Callable → Option LuaFunction
  | .other => none
  | .function body => some body.run

def Body.run : Body → LuaFunction
  | .returns results, environment => some (.returned results, environment)
  | .raises message, environment => some (.raised message, environment)
  | .emit arguments callbacks rest, environment =>
      (luaEmitFrame arguments environment).bind fun L =>
        (callbacks.luaEmit L).bind fun L => rest.run L.environment

/-- The loop of `ModuleManager::luaEmit`. -/
def Callbacks.luaEmit : Callbacks → LuaState → Option LuaState
  | .nil, L => some L
  | .cons module callback rest, L =>
      (L.internalCallLuaFieldRef (fun _ => callback.toFunction) (some 1) (some module)).bind
        fun L => rest.luaEmit L

end

/-! ## What is left behind -/

/-- The end of a function. -/
def Body.outcome : Body → Outcome
  | .returns results => .returned results
  | .raises message => .raised message
  | .emit _ _ rest => rest.outcome

/-- An error is a string or a number. -/
def Outcome.reportable : Outcome → Bool
  | .returned _ => true
  | .raised message => message.isSome

mutual

/-- The environment after a callback of the module: the global one after a
return, or else what came into force last. -/
def Callable.leaves (module : ModuleId) : Callable → Environment
  | .other => .sandbox module
  | .function body =>
      match body.outcome with
      | .returned _ => .global
      | .raised _ => body.leaves.getD (.sandbox module)

/-- The environment that its last callback leaves to a function. -/
def Body.leaves : Body → Option Environment
  | .returns _ => none
  | .raises _ => none
  | .emit _ callbacks rest => rest.leaves.or callbacks.leaves

def Callbacks.leaves : Callbacks → Option Environment
  | .nil => none
  | .cons module callback rest => rest.leaves.or (some (callback.leaves module))

end

def Callbacks.isEmpty : Callbacks → Bool
  | .nil => true
  | .cons _ _ _ => false

mutual

/-- Nothing in it is undefined, and no assertion fails: what is raised can be
reported, and an emit with callbacks has few enough arguments left over in
its frame for `checkStack`. -/
def Callable.completes : Callable → Bool
  | .other => true
  | .function body => body.completes && body.outcome.reportable

def Body.completes : Body → Bool
  | .returns _ => true
  | .raises _ => true
  | .emit arguments callbacks rest =>
      2 ≤ arguments && (callbacks.isEmpty || arguments ≤ 22) && callbacks.completes &&
        rest.completes

def Callbacks.completes : Callbacks → Bool
  | .nil => true
  | .cons _ callback rest => callback.completes && rest.completes

end

/-! ## The ways out -/

namespace LuaState

variable {L : LuaState} {sandboxEnv : Option ModuleId}

theorem pop_of_le {n : Nat} (h : n ≤ L.top) : L.pop n = some { L with top := L.top - n } :=
  if_pos h

@[simp] theorem pop_push (L : LuaState) (n : Nat) : (L.push n).pop n = some L := by
  rw [pop_of_le (Nat.le_add_left n L.top)]
  simp [push]

theorem push_comm (L : LuaState) (m n : Nat) : (L.push m).push n = (L.push n).push m :=
  congrArg (LuaState.mk · L.environment) (Nat.add_right_comm L.top m n)

/-- The call itself uses two slots, and the bound is on the first. -/
theorem setGlobalEnvironment_eq (L : LuaState) (env : Environment) :
    L.setGlobalEnvironment env =
      if L.top < 20 then some { L with environment := env } else none := by
  unfold setGlobalEnvironment pushThread checkStack
  by_cases h : L.top < 20
  · have hroom : L.push.top ≤ 20 := h
    rw [if_pos hroom, if_pos h]
    let entered : LuaState := { L with environment := env }
    show (entered.push.push.pop).bind (fun L => L.pop) = some entered
    rw [pop_push]
    exact pop_push entered 1
  · have hfull : ¬ L.push.top ≤ 20 := h
    rw [if_neg hfull, if_neg h]
    rfl

theorem pushArguments_eq (names : List Bytes) (L : LuaState) :
    pushArguments names L = some L.push := by
  unfold pushArguments
  induction names with
  | nil => rfl
  | cons name names ih =>
      rw [List.foldlM_cons, pop_push]
      exact ih

/-- The state in which the function is looked up. -/
def entered (L : LuaState) (sandboxEnv : Option ModuleId) : LuaState :=
  { L with environment := (sandboxEnv.map .sandbox).getD L.environment }

/-- `checkStack` lets the call begin. -/
def Room (L : LuaState) (sandboxEnv : Option ModuleId) : Prop := sandboxEnv = none ∨ L.top < 20

instance : Decidable (L.Room sandboxEnv) := inferInstanceAs (Decidable (_ ∨ _))

theorem room_some {module : ModuleId} : L.Room (some module) ↔ L.top < 20 :=
  or_iff_right (Option.some_ne_none module)

theorem enterSandbox_eq (L : LuaState) (sandboxEnv : Option ModuleId) :
    L.enterSandbox sandboxEnv =
      if L.Room sandboxEnv then some (L.entered sandboxEnv) else none := by
  cases sandboxEnv with
  | none => rfl
  | some module =>
      show L.setGlobalEnvironment (.sandbox module) = _
      rw [setGlobalEnvironment_eq]
      by_cases h : L.top < 20
      · rw [if_pos h, if_pos (room_some.mpr h)]
        rfl
      · rw [if_neg h, if_neg (mt room_some.mp h)]

/-- The results that are not popped. -/
def leftover (nresults : Option Nat) (results : Nat) : Nat :=
  match nresults with
  | some _ => 0
  | none => results

/-- The function and its argument are popped in any case. -/
theorem pcall_push (L : LuaState) (f : LuaFunction) (nresults : Option Nat) :
    L.push.push.pcall f nresults = (f L.environment).bind fun (outcome, environment) =>
      let L : LuaState := { L with environment }
      match outcome with
      | .returned results => some (outcome, L.push (nresults.getD results))
      | .raised _ => some (outcome, L.push) := by
  unfold pcall
  show ((L.push 2).pop 2).bind _ = _
  rw [pop_push]
  rfl

theorem pushLuaResult_push (L : LuaState) (nresults : Option Nat) (results : Nat) :
    (L.push (nresults.getD results)).pushLuaResult nresults =
      some (L.push (leftover nresults results)) := by
  cases nresults with
  | none => rfl
  | some n => exact pop_push L n

section
variable {pushTable : LuaState → Option LuaState} {popped : Nat} {nresults : Option Nat}
  {function : Environment → Option LuaFunction} {f : LuaFunction}

theorem internalCall_of_full (hfull : ¬ L.Room sandboxEnv) :
    internalCall pushTable popped nresults function sandboxEnv L = none := by
  unfold internalCall
  rw [enterSandbox_eq, if_neg hfull]
  rfl

variable (hpush : ∀ L, pushTable L = some L.push) (hroom : L.Room sandboxEnv)
include hpush hroom

/-- The routine once its table and what it found are on the stack. -/
theorem internalCall_eq :
    internalCall pushTable popped nresults function sandboxEnv L =
      match function (L.entered sandboxEnv).environment with
      | none => (L.entered sandboxEnv).push.push.pop popped
      | some f =>
          ((L.entered sandboxEnv).push.push.push.pcall f nresults).bind fun
            | (.raised message, L) => (L.reportError message).bind fun L => L.pop 2
            | (.returned _, L) =>
                (L.pushLuaResult nresults).bind fun L =>
                  (L.pop).bind fun L => L.leaveSandbox sandboxEnv := by
  unfold internalCall
  rw [enterSandbox_eq, if_pos hroom]
  show (pushTable (L.entered sandboxEnv)).bind _ = _
  rw [hpush]
  rfl

theorem internalCall_other (hpopped : popped ≤ 2)
    (hfound : function (L.entered sandboxEnv).environment = none) :
    internalCall pushTable popped nresults function sandboxEnv L =
      some { L.entered sandboxEnv with top := L.top + 2 - popped } := by
  rw [internalCall_eq hpush hroom, hfound]
  exact pop_of_le (hpopped.trans (Nat.le_add_left 2 L.top))

/-- What a call for a function comes to. -/
theorem internalCall_function
    (hfound : function (L.entered sandboxEnv).environment = some f) :
    internalCall pushTable popped nresults function sandboxEnv L =
      (f (L.entered sandboxEnv).environment).bind fun
        | (.raised message, environment) => message.map fun _ => { L with environment }
        | (.returned results, environment) =>
            leaveSandbox { top := L.top + leftover nresults results, environment }
              sandboxEnv := by
  rw [internalCall_eq hpush hroom, hfound]
  show ((L.entered sandboxEnv).push.push.push.pcall f nresults).bind _ = _
  rw [pcall_push, Option.bind_assoc]
  refine Option.bind_congr fun end_ _ => ?_
  obtain ⟨outcome, environment⟩ := end_
  cases outcome with
  | raised message =>
      show ((message.map fun _ => ({ L with environment } : LuaState).push.push).bind
        fun L => L.pop 2) = _
      cases message with
      | none => rfl
      | some text => exact pop_push ({ L with environment } : LuaState) 2
  | returned results =>
      show ((({ L with environment } : LuaState).push.push (nresults.getD results)).pushLuaResult
        nresults).bind _ = _
      rw [pushLuaResult_push, push_comm]
      show ((({ L with environment } : LuaState).push (leftover nresults results)).push.pop).bind
        (fun L => L.leaveSandbox sandboxEnv) = _
      rw [pop_push]
      rfl

end

end LuaState

/-! ## What a function does -/

theorem luaEmitFrame_eq (arguments : Nat) (environment : Environment) :
    luaEmitFrame arguments environment =
      if 2 ≤ arguments then some { top := arguments - 3, environment } else none := by
  unfold luaEmitFrame
  by_cases hidentifier : 2 < arguments
  · have htake :
        (LuaState.mk arguments environment).pop = some ⟨arguments - 3 + 2, environment⟩ := by
      rw [LuaState.pop_of_le (Nat.one_le_of_lt hidentifier)]
      congr 2
      show arguments - 1 = arguments - 3 + 2
      omega
    rw [if_pos hidentifier, htake, if_pos hidentifier.le]
    rfl
  · by_cases htwo : 2 ≤ arguments
    · obtain rfl : arguments = 2 := by omega
      rfl
    · rw [if_neg hidentifier, if_neg htwo]
      obtain rfl | rfl : arguments = 0 ∨ arguments = 1 := by omega
      · rfl
      · rfl

/-- In a full frame nothing can be called. -/
theorem Callbacks.luaEmit_full {top : Nat} {callbacks : Callbacks} (h : ¬ top < 20)
    (environment : Environment) :
    callbacks.luaEmit { top, environment } =
      if callbacks.isEmpty && callbacks.completes then
        some { top, environment := callbacks.leaves.getD environment }
      else none := by
  cases callbacks with
  | nil => rfl
  | cons module callback rest =>
      have hfull : ¬ (LuaState.mk top environment).Room (some module) :=
        mt LuaState.room_some.mp h
      show ((LuaState.mk top environment).internalCallLuaFieldRef _ (some 1)
        (some module)).bind _ = none
      unfold LuaState.internalCallLuaFieldRef
      rw [LuaState.internalCall_of_full hfull]
      rfl

-- A call depends on the body of its callback, a body on the callbacks of its
-- emits; the three follow the three types.
mutual

/-- A call for one callback of an event. -/
theorem Callable.call_eq (module : ModuleId) (L : LuaState) (h : L.top < 20) :
    ∀ callback : Callable,
      L.internalCallLuaFieldRef (fun _ => callback.toFunction) (some 1) (some module) =
        if callback.completes then some { L with environment := callback.leaves module }
        else none
  | .other => LuaState.internalCall_other (fun _ => rfl) (.inr h) le_rfl rfl
  | .function body => by
      have hrun := Body.run_eq (.sandbox module) body
      unfold LuaState.internalCallLuaFieldRef
      refine Eq.trans (LuaState.internalCall_function (fun _ => rfl) (.inr h) rfl) ?_
      show (body.run (.sandbox module)).bind _ = _
      rw [hrun]
      unfold Callable.completes Callable.leaves
      cases body.completes with
      | false => rfl
      | true =>
          cases body.outcome with
          | returned results =>
              show LuaState.setGlobalEnvironment _ .global = _
              rw [LuaState.setGlobalEnvironment_eq]
              exact if_pos h
          | raised message => cases message <;> rfl

/-- A function ends as it does wherever it is called; the environment it leaves
is that of its last callback. -/
theorem Body.run_eq (environment : Environment) : ∀ body : Body,
    body.run environment =
      if body.completes then some (body.outcome, body.leaves.getD environment) else none
  | .returns results => rfl
  | .raises message => rfl
  | .emit arguments callbacks rest => by
      show (luaEmitFrame arguments environment).bind _ = _
      rw [luaEmitFrame_eq]
      unfold Body.completes Body.outcome Body.leaves
      by_cases htwo : 2 ≤ arguments
      · rw [if_pos htwo]
        have hcallbacks : callbacks.luaEmit { top := arguments - 3, environment } =
            if (callbacks.isEmpty || decide (arguments ≤ 22)) && callbacks.completes then
              some { top := arguments - 3, environment := callbacks.leaves.getD environment }
            else none := by
          by_cases hfew : arguments ≤ 22
          · have hroom : arguments - 3 < 20 := by omega
            rw [decide_eq_true hfew, Bool.or_true, Bool.true_and]
            exact Callbacks.luaEmit_eq { top := arguments - 3, environment } hroom callbacks
          · have hfull : ¬ arguments - 3 < 20 := by omega
            rw [decide_eq_false hfew, Bool.or_false]
            exact Callbacks.luaEmit_full hfull environment
        show (callbacks.luaEmit { top := arguments - 3, environment }).bind _ = _
        rw [hcallbacks, decide_eq_true htwo, Bool.true_and]
        cases (callbacks.isEmpty || decide (arguments ≤ 22)) && callbacks.completes with
        | false => rfl
        | true =>
            show rest.run (callbacks.leaves.getD environment) = _
            rw [Body.run_eq (callbacks.leaves.getD environment) rest]
            cases rest.leaves <;> rfl
      · rw [if_neg htwo, decide_eq_false htwo]
        rfl

theorem Callbacks.luaEmit_eq (L : LuaState) (h : L.top < 20) : ∀ callbacks : Callbacks,
    callbacks.luaEmit L =
      if callbacks.completes then
        some { L with environment := callbacks.leaves.getD L.environment }
      else none
  | .nil => rfl
  | .cons module callback rest => by
      show (L.internalCallLuaFieldRef _ (some 1) (some module)).bind _ = _
      rw [Callable.call_eq module L h callback]
      unfold Callbacks.completes Callbacks.leaves
      cases callback.completes with
      | false => rfl
      | true =>
          show rest.luaEmit { L with environment := callback.leaves module } = _
          rw [Callbacks.luaEmit_eq { L with environment := callback.leaves module } h rest]
          cases rest.leaves <;> rfl

end

end LoginServer.Script
