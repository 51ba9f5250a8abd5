import LoginServer.Script.LuaCalls
import LoginServer.Verified.PartialRun

/-!
# Balanced calls into Lua

A call into Lua is balanced if the frame is as high afterwards as it was
before, and the same environment is in force.  `internalCallLuaField` pops one
slot too few where there is no function, and `exportLua` one too many where its
module has no table yet.  The environment is reset on one way out of three, and
then to the global one, whatever was in force before.

## Main results

* `internalCall_balanced_iff`, `exportLua_balanced_iff` — one call.
* `calls_balanced_iff` — any run of calls.
-/

namespace LoginServer.Script

open LoginServer.Core
open LoginServer.Network (Bytes)
open LoginServer.Verified.PartialRun
open LuaState

/-! ## Runs of calls -/

/-- A call into Lua.  What a name stands for depends on the environment that is
in force; a reference stands for the same everywhere. -/
inductive LuaCall where
  | field (function : Environment → Callable) (nresults : Option Nat)
      (sandboxEnv : Option ModuleId) (args : List Bytes)
  | fieldRef (function : Environment → Callable) (nresults : Option Nat)
      (sandboxEnv : Option ModuleId)
  | fieldNoRetRef (function : Environment → Callable) (sandboxEnv : Option ModuleId)
  | fieldNoRet (function : Environment → Callable) (sandboxEnv : Option ModuleId)
      (args : List Bytes)
  | exportLua (this : ModuleId) (m_name : Bytes) (name : ExportName) (ref : Int)

/-- `putFunctionOnStack`. -/
def toFunction (function : Environment → Callable) (environment : Environment) :
    Option LuaFunction :=
  (function environment).toFunction

def LuaCall.step : LuaCall → Exporting → Option Exporting
  | .field function nresults sandboxEnv args, s =>
      (s.lua.internalCallLuaField (toFunction function) nresults sandboxEnv args).map
        fun lua => { s with lua }
  | .fieldRef function nresults sandboxEnv, s =>
      (s.lua.internalCallLuaFieldRef (toFunction function) nresults sandboxEnv).map
        fun lua => { s with lua }
  | .fieldNoRetRef function sandboxEnv, s =>
      (s.lua.internalCallLuaFieldNoRetRef (toFunction function) sandboxEnv).map
        fun lua => { s with lua }
  | .fieldNoRet function sandboxEnv args, s =>
      (s.lua.internalCallLuaFieldNoRet (toFunction function) sandboxEnv args).map
        fun lua => { s with lua }
  | .exportLua this m_name name ref, s => (Script.exportLua this m_name name ref s).map Prod.snd

/-! ## The condition -/

/-- The results that a function returns. -/
def Callable.results : Callable → Nat
  | .other => 0
  | .function body =>
      match body.outcome with
      | .returned results => results
      | .raised _ => 0

/-- Whose environment is in force after a call: without a sandbox the one that
the last callback has left, if there was one. -/
def Callable.left (sandboxEnv : Option ModuleId) (environment : Environment)
    (callable : Callable) : Environment :=
  match sandboxEnv, callable with
  | some module, callable => callable.leaves module
  | none, .other => environment
  | none, .function body => body.leaves.getD environment

/-- The condition on a call of what was found, in a routine that pops so much
where this is not a function. -/
structure BalancedCall (popped : Nat) (nresults : Option Nat) (sandboxEnv : Option ModuleId)
    (callable : Callable) (L : LuaState) : Prop where
  room : L.Room sandboxEnv
  completes : callable.completes = true
  other : callable = .other → popped = 2
  results : nresults = none → callable.results = 0
  environment : callable.left sandboxEnv L.environment = L.environment

/-- The name is taken, or the table of the module is there if `g_modules` is. -/
def BalancedExport (this : ModuleId) (m_name : Bytes) (name : ExportName) (s : Exporting) : Prop :=
  name ∈ s.exports this ∨ ∀ tables, s.gModules = some tables → m_name ∈ tables

def LuaCall.Balanced : LuaCall → Exporting → Prop
  | .field function nresults sandboxEnv _, s =>
      BalancedCall 1 nresults sandboxEnv (function (s.lua.entered sandboxEnv).environment) s.lua
  | .fieldRef function nresults sandboxEnv, s =>
      BalancedCall 2 nresults sandboxEnv (function (s.lua.entered sandboxEnv).environment) s.lua
  | .fieldNoRetRef function sandboxEnv, s =>
      BalancedCall 2 (some 0) sandboxEnv (function (s.lua.entered sandboxEnv).environment) s.lua
  | .fieldNoRet function sandboxEnv _, s =>
      BalancedCall 2 (some 0) sandboxEnv (function (s.lua.entered sandboxEnv).environment) s.lua
  | .exportLua this m_name name _, s => BalancedExport this m_name name s

/-! ## One call of a function -/

namespace LuaState

variable {L : LuaState} {sandboxEnv : Option ModuleId}

theorem mk_eq_some_iff {top : Nat} {environment : Environment} :
    some (LuaState.mk top environment) = some L ↔
      top = L.top ∧ environment = L.environment := by
  rw [Option.some.injEq]
  cases L
  exact LuaState.mk.injEq .. ▸ Iff.rfl

theorem pop_push_push (L : LuaState) : L.push.push.pop 2 = some L := pop_push L 2

theorem push_pop_two (L : LuaState) : L.push.pop 2 = L.pop := by
  unfold pop push
  by_cases h : 1 ≤ L.top
  · have htwo : 2 ≤ L.top + 1 := Nat.succ_le_succ h
    rw [if_pos h, if_pos htwo]
    rfl
  · have htwo : ¬ 2 ≤ L.top + 1 := fun hle => h (Nat.le_of_succ_le_succ hle)
    rw [if_neg h, if_neg htwo]

theorem pop_ne_self (L : LuaState) : L.pop ≠ some L := by
  unfold pop
  split
  · rw [ne_eq, mk_eq_some_iff]
    omega
  · exact nofun

/-- A call that has returned is balanced if nothing is left over and the
environment is the one that `leaveSandbox` puts into force. -/
theorem leaveSandbox_eq_some_iff (hroom : L.Room sandboxEnv) (k : Nat)
    (environment : Environment) :
    (LuaState.mk (L.top + k) environment).leaveSandbox sandboxEnv = some L ↔
      k = 0 ∧ (if sandboxEnv = none then environment else .global) = L.environment := by
  cases sandboxEnv with
  | none =>
      show some _ = some L ↔ _
      rw [mk_eq_some_iff, Nat.add_eq_left, if_pos rfl]
  | some module =>
      have htop : L.top < 20 := room_some.mp hroom
      show (LuaState.mk (L.top + k) environment).setGlobalEnvironment .global = some L ↔ _
      rw [setGlobalEnvironment_eq, if_neg (Option.some_ne_none module)]
      by_cases hk : L.top + k < 20
      · rw [if_pos hk, mk_eq_some_iff, Nat.add_eq_left]
      · rw [if_neg hk]
        refine iff_of_false nofun fun h => hk ?_
        rw [h.1]
        exact htop

theorem leftover_eq_zero {nresults : Option Nat} {results : Nat} :
    leftover nresults results = 0 ↔ (nresults = none → results = 0) := by
  cases nresults with
  | none => exact ⟨fun h _ => h, fun h => h rfl⟩
  | some n => exact iff_of_true rfl nofun

/-! ### The condition, by what was found and how it ends -/

section
variable {pushTable : LuaState → Option LuaState} {popped : Nat} {nresults : Option Nat}
  {function : Environment → Callable} {body : Body}

theorem balanced_other_iff (hroom : L.Room sandboxEnv) :
    BalancedCall popped nresults sandboxEnv .other L ↔
      popped = 2 ∧ (L.entered sandboxEnv).environment = L.environment := by
  have hleft : Callable.other.left sandboxEnv L.environment =
      (L.entered sandboxEnv).environment := by cases sandboxEnv <;> rfl
  rw [← hleft]
  constructor
  · exact fun h => ⟨h.other rfl, h.environment⟩
  · rintro ⟨htwo, henvironment⟩
    exact ⟨hroom, rfl, fun _ => htwo, fun _ => rfl, henvironment⟩

theorem balanced_returned_iff (hroom : L.Room sandboxEnv) (hcompletes : body.completes = true)
    {results : Nat} (houtcome : body.outcome = .returned results) :
    BalancedCall popped nresults sandboxEnv (.function body) L ↔
      leftover nresults results = 0 ∧
        (if sandboxEnv = none then body.leaves.getD (L.entered sandboxEnv).environment
          else .global) = L.environment := by
  have hleft : (Callable.function body).left sandboxEnv L.environment =
      if sandboxEnv = none then body.leaves.getD (L.entered sandboxEnv).environment
      else .global := by
    cases sandboxEnv with
    | none => rfl
    | some module =>
        show (Callable.function body).leaves module = .global
        rw [Callable.leaves, houtcome]
  have hresults : (Callable.function body).results = results := by
    rw [Callable.results, houtcome]
  have hreported : (Callable.function body).completes = true := by
    rw [Callable.completes, hcompletes, houtcome]
    rfl
  rw [leftover_eq_zero, ← hleft, ← hresults]
  constructor
  · exact fun h => ⟨h.results, h.environment⟩
  · rintro ⟨hnone, henvironment⟩
    exact ⟨hroom, hreported, (fun h => by cases h), hnone, henvironment⟩

theorem balanced_raised_iff (hroom : L.Room sandboxEnv) (hcompletes : body.completes = true)
    {message : Option Bytes} (houtcome : body.outcome = .raised message) :
    BalancedCall popped nresults sandboxEnv (.function body) L ↔
      message.isSome = true ∧
        body.leaves.getD (L.entered sandboxEnv).environment = L.environment := by
  have hleft : (Callable.function body).left sandboxEnv L.environment =
      body.leaves.getD (L.entered sandboxEnv).environment := by
    cases sandboxEnv with
    | none => rfl
    | some module =>
        show (Callable.function body).leaves module = _
        rw [Callable.leaves, houtcome]
        rfl
  have hresults : (Callable.function body).results = 0 := by
    rw [Callable.results, houtcome]
  have hreported : (Callable.function body).completes = message.isSome := by
    rw [Callable.completes, hcompletes, houtcome]
    rfl
  rw [← hleft, ← hreported]
  constructor
  · exact fun h => ⟨h.completes, h.environment⟩
  · rintro ⟨hcompletes, henvironment⟩
    exact ⟨hroom, hcompletes, (fun h => by cases h), fun _ => hresults, henvironment⟩

/-- What does not complete does not return at all. -/
theorem not_balanced_of_stuck (hstuck : body.completes = false) :
    ¬ BalancedCall popped nresults sandboxEnv (.function body) L := by
  intro h
  have hcompletes := h.completes
  rw [Callable.completes, hstuck] at hcompletes
  exact Bool.noConfusion hcompletes

/-- The routine that pops too little leaves the table where there is no
function. -/
theorem internalCall_balanced_iff (hpush : ∀ L, pushTable L = some L.push)
    (hpopped : popped ≤ 2) :
    internalCall pushTable popped nresults (toFunction function) sandboxEnv L = some L ↔
      BalancedCall popped nresults sandboxEnv (function (L.entered sandboxEnv).environment) L := by
  by_cases hroom : L.Room sandboxEnv
  · cases hcallable : function (L.entered sandboxEnv).environment with
    | other =>
        have hfound : toFunction function (L.entered sandboxEnv).environment = none := by
          rw [toFunction, hcallable]
          rfl
        rw [internalCall_other hpush hroom hpopped hfound, mk_eq_some_iff,
          balanced_other_iff hroom]
        exact and_congr_left fun _ => ⟨fun htop => by omega, fun htwo => by omega⟩
    | function body =>
        have hfound : toFunction function (L.entered sandboxEnv).environment = some body.run := by
          rw [toFunction, hcallable]
          rfl
        rw [internalCall_function hpush hroom hfound, Body.run_eq]
        cases hcompletes : body.completes with
        | false => exact iff_of_false nofun (not_balanced_of_stuck hcompletes)
        | true =>
            rw [if_pos rfl, Option.bind_some]
            cases houtcome : body.outcome with
            | returned results =>
                rw [balanced_returned_iff hroom hcompletes houtcome]
                exact leaveSandbox_eq_some_iff hroom _ _
            | raised message =>
                rw [balanced_raised_iff hroom hcompletes houtcome]
                cases message with
                | none => exact iff_of_false nofun (fun h => Bool.noConfusion h.1)
                | some text =>
                    show some (LuaState.mk L.top _) = some L ↔ _
                    rw [mk_eq_some_iff, and_iff_right rfl]
                    exact (and_iff_right rfl).symm
  · rw [internalCall_of_full hroom]
    exact iff_of_false nofun fun h => hroom h.room

end

end LuaState

/-! ## One export -/

section
variable {this : ModuleId} {m_name : Bytes} {name : ExportName} {s : Exporting}

theorem exportLua_of_balanced (h : BalancedExport this m_name name s) (ref : Int) :
    (exportLua this m_name name ref s).map (fun ended => ended.2.lua) = some s.lua := by
  unfold exportLua
  by_cases hname : name ∈ s.exports this
  · rw [if_pos hname]
    rfl
  · rw [if_neg hname]
    cases htables : s.gModules with
    | none =>
        show ((s.lua.push.pop).bind _).map _ = _
        rw [pop_push]
        rfl
    | some tables =>
        have hmem : m_name ∈ tables := h.resolve_left hname tables htables
        obtain ⟨table, htable⟩ := Option.isSome_iff_exists.mp (AList.lookup_isSome.mpr hmem)
        dsimp only
        rw [htable]
        show ((s.lua.push.push.push.pop).bind fun L => (L.pop 2).bind _).map _ = _
        rw [pop_push, Option.bind_some, pop_push_push]
        rfl

/-- The field is popped, and after it two more. -/
theorem exportLua_of_not_balanced (h : ¬ BalancedExport this m_name name s) (ref : Int) :
    (exportLua this m_name name ref s).map (fun ended => ended.2.lua) = s.lua.pop := by
  obtain ⟨hname, hmissing⟩ := not_or.mp h
  simp only [not_forall] at hmissing
  obtain ⟨tables, htables, hmem⟩ := hmissing
  unfold exportLua
  rw [if_neg hname, htables]
  dsimp only
  rw [AList.lookup_eq_none.mpr hmem]
  show ((s.lua.push.push.pop).bind fun L => (L.push.push.pop).bind fun L =>
        (L.pop).bind fun L => (L.pop 2).bind _).map _ = _
  rw [pop_push, Option.bind_some, pop_push, Option.bind_some, pop_push, Option.bind_some,
    push_pop_two]
  cases s.lua.pop with
  | none => rfl
  | some L => rfl

end

theorem exportLua_balanced_iff (this : ModuleId) (m_name : Bytes) (name : ExportName) (ref : Int)
    (s : Exporting) :
    (∃ t, (exportLua this m_name name ref s).map Prod.snd = some t ∧ t.lua = s.lua) ↔
      BalancedExport this m_name name s := by
  have hview :
      (∃ t, (exportLua this m_name name ref s).map Prod.snd = some t ∧ t.lua = s.lua) ↔
      (exportLua this m_name name ref s).map (fun ended => ended.2.lua) = some s.lua := by
    cases exportLua this m_name name ref s with
    | none => exact iff_of_false nofun nofun
    | some ended =>
        constructor
        · rintro ⟨t, ht, hlua⟩
          rw [← Option.some.inj ht] at hlua
          exact congrArg some hlua
        · exact fun h => ⟨ended.2, rfl, Option.some.inj h⟩
  rw [hview]
  by_cases h : BalancedExport this m_name name s
  · exact iff_of_true (exportLua_of_balanced h ref) h
  · rw [exportLua_of_not_balanced h]
    exact iff_of_false (pop_ne_self s.lua) h

/-! ## Runs -/

theorem exists_map_iff (s : Exporting) (after : Option LuaState) :
    (∃ t, (after.map fun lua => { s with lua }) = some t ∧ t.lua = s.lua) ↔
      after = some s.lua := by
  constructor
  · rintro ⟨t, ht, hlua⟩
    obtain ⟨lua, hafter, rfl⟩ := Option.map_eq_some_iff.mp ht
    rw [hafter]
    exact congrArg some hlua
  · intro h
    rw [h]
    exact ⟨s, rfl, rfl⟩

theorem call_balanced_iff (call : LuaCall) (s : Exporting) :
    (∃ t, call.step s = some t ∧ t.lua = s.lua) ↔ call.Balanced s := by
  cases call with
  | field function nresults sandboxEnv args =>
      exact (exists_map_iff s _).trans (internalCall_balanced_iff (pushArguments_eq args)
        (Nat.le_succ 1))
  | fieldRef function nresults sandboxEnv =>
      exact (exists_map_iff s _).trans (internalCall_balanced_iff (fun _ => rfl) le_rfl)
  | fieldNoRetRef function sandboxEnv =>
      exact (exists_map_iff s _).trans (internalCall_balanced_iff (fun _ => rfl) le_rfl)
  | fieldNoRet function sandboxEnv args =>
      exact (exists_map_iff s _).trans (internalCall_balanced_iff (pushArguments_eq args) le_rfl)
  | exportLua this m_name name ref => exact exportLua_balanced_iff this m_name name ref s

/-- A run of calls is balanced throughout if and only if each of its calls meets
the condition in the state it is made in. -/
theorem calls_balanced_iff (calls : List LuaCall) (s : Exporting) :
    Keeps LuaCall.step Exporting.lua calls s ↔ Obeys LuaCall.step LuaCall.Balanced calls s :=
  keeps_iff_obeys call_balanced_iff calls s

/-- A callback of module 3 that is no function any more. -/
def callOther : LuaCall := .field (fun _ => .other) (some 1) (some 3) []

/-- A callback of module 3 that raises an error. -/
def callRaising : LuaCall :=
  .fieldNoRet (fun _ => .function (.raises (some [101]))) (some 3) []

/-- The first export of module 3. -/
def firstExport : LuaCall := .exportLua 3 [109] [110] 7

/-- The first leaves a slot behind, and after twenty of them `checkStack` fails;
all but the export leave the sandbox of module 3 in force; and the export takes
a slot of its caller. -/
theorem calls_not_balanced :
    (callOther.step {}).map Exporting.lua = some ⟨1, .sandbox 3⟩ ∧
      (run LuaCall.step (List.replicate 21 callOther) {}).isNone = true ∧
      (callRaising.step {}).map Exporting.lua = some ⟨0, .sandbox 3⟩ ∧
      (firstExport.step { lua := ⟨1, .global⟩ }).map Exporting.lua = some ⟨0, .global⟩ ∧
      ¬ Keeps LuaCall.step Exporting.lua [callRaising] {} := by
  have hraising : (callRaising.step {}).map Exporting.lua = some ⟨0, .sandbox 3⟩ := by
    decide +kernel
  refine ⟨by decide +kernel, by decide +kernel, hraising, by decide +kernel, fun h => ?_⟩
  obtain ⟨t, ht, hpart, -⟩ := keeps_cons.mp h
  rw [ht] at hraising
  have hlua : t.lua = ⟨0, .sandbox 3⟩ := Option.some.inj hraising
  rw [hlua] at hpart
  exact absurd hpart (by decide)

end LoginServer.Script
