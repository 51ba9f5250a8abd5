import LoginServer.Core.ListMoves
import LoginServer.Core.ModuleLoader

/-!
# What a failed load leaves behind

`Module::load` gives up on five ways out, all of them after the sandbox of the
module has come into force and three of them after `settings.lua` has run.
None of them restores anything, and `loadModules` only deletes the object.
What is undone has to be undone by the calls of the script itself.

## Main results

* `load_failed` — the state after each way out.
* `sameLists_applyAll_iff` — the operations that leave the lists as they were.
* `failed_load_restored_iff` — the scripts after which nothing is left behind.
-/

namespace LoginServer.Core

open LoginServer.Verified.Roster

namespace Loader

/-- `m_moduleEvents` and `m_identifiedModuleEvents` have the entries they had;
in which order an `unordered_map` keeps them does not matter. -/
structure SameLists (reg reg' : Registry) : Prop where
  plain : ∀ event, reg'.moduleEvents.lookup event = reg.moduleEvents.lookup event
  identified : ∀ event,
    reg'.identifiedModuleEvents.lookup event = reg.identifiedModuleEvents.lookup event

/-- The load has left nothing behind: the lists and the environment are as
they were, and no list holds the module that is deleted. -/
structure Restored (s s' : Loader) (this : ModuleId) : Prop where
  lists : SameLists s.registry s'.registry
  environment : s'.environment = s.environment
  gone : ∀ event, this ∉ s'.registry.listed event ∧
    this ∉ s'.registry.listedIdentified event

/-- The module has just been constructed. -/
structure Fresh (s : Loader) (this : ModuleId) : Prop where
  environment : s.environment ≠ .sandbox this
  unlisted :
    ∀ event, this ∉ s.registry.listed event ∧ this ∉ s.registry.listedIdentified event

/-- The script takes back by itself all that it does.  The last callback that
it caused returned to the environment that was in force before; and for every
event, the modules that its calls made stop listening stood at the end of the
list and were made to listen again in the same order, every other module that
they made listen was made to stop, and an entry that they made was dropped. -/
structure UndoesItself (s : Loader) (calls : List ScriptCall) : Prop where
  environment : lastEnvironment calls = some s.environment
  lists : ∀ table event,
    Undone (listMoves table event s.registry (scriptOps calls)) (s.registry.modulesFor table event)

/-- The state after a load that says it failed. -/
theorem load_failed {s : Loader} {this : ModuleId} {entry : ModuleEntry}
    (h : (s.load this [] entry).1 = false) :
    (s.load this [] entry).2 =
      { s with environment := .sandbox this }.runCalls (settingsCalls entry) := by
  rw [load_fst] at h
  exact congrArg Prod.snd (load_of_not_loads h s this)

/-- The module is not in the lists if they are those from before it was made. -/
theorem Fresh.gone {s : Loader} {this : ModuleId} {reg : Registry} (h : s.Fresh this)
    (hlists : SameLists s.registry reg) (event : EventName) :
    this ∉ reg.listed event ∧ this ∉ reg.listedIdentified event := by
  unfold Registry.listed Registry.listedIdentified
  rw [hlists.plain event, hlists.identified event]
  exact h.unlisted event

/-- The lists are as they were exactly if each of them has been moved back. -/
theorem sameLists_applyAll_iff (reg : Registry) (ops : List Op) :
    SameLists reg (reg.applyAll ops) ↔
      ∀ table event, Undone (listMoves table event reg ops) (reg.modulesFor table event) := by
  have hentry : ∀ table event,
      (reg.applyAll ops).modulesFor table event = reg.modulesFor table event ↔
        Undone (listMoves table event reg ops) (reg.modulesFor table event) := by
    intro table event
    rw [modulesFor_applyAll, replay_eq_self_iff]
  constructor
  · intro h table event
    rw [← hentry]
    cases table with
    | plain => exact h.plain event
    | identified => exact h.identified event
  · intro h
    exact ⟨fun event => (hentry .plain event).mpr (h .plain event),
      fun event => (hentry .identified event).mpr (h .identified event)⟩

/-- A load that fails leaves nothing behind if and only if `settings.lua` has
run and takes back all that it does, the change of the environment included. -/
theorem failed_load_restored_iff (s : Loader) (this : ModuleId) (entry : ModuleEntry)
    (hfresh : s.Fresh this) (h : (s.load this [] entry).1 = false) :
    Restored s (s.load this [] entry).2 this ↔ UndoesItself s (settingsCalls entry) := by
  rw [load_failed h]
  have henvironment := environment_runCalls (settingsCalls entry)
    { s with environment := .sandbox this }
  have hregistry := registry_runCalls (settingsCalls entry)
    { s with environment := .sandbox this }
  constructor
  · intro hrestored
    refine ⟨?_, (sameLists_applyAll_iff _ _).mp (hregistry ▸ hrestored.lists)⟩
    have hsame := henvironment.symm.trans hrestored.environment
    cases hlast : lastEnvironment (settingsCalls entry) with
    | none =>
        rw [hlast] at hsame
        exact absurd hsame.symm hfresh.environment
    | some environment =>
        rw [hlast] at hsame
        exact congrArg some hsame
  · rintro ⟨hlast, hlists⟩
    have hsame : SameLists s.registry
        ({ s with environment := .sandbox this }.runCalls (settingsCalls entry)).registry := by
      rw [hregistry]
      exact (sameLists_applyAll_iff _ _).mpr hlists
    refine ⟨hsame, ?_, fun event => hfresh.gone hsame event⟩
    rw [henvironment, hlast]
    rfl

/-- A directory whose `settings.lua` names no files. -/
def withoutFiles (calls : List ScriptCall) : ModuleEntry where
  path := [97]
  settings := some { chunk := { calls }, files := fun _ => none }

theorem fresh_start : Fresh {} 0 where
  environment := nofun
  unlisted := fun _ => ⟨List.not_mem_nil, List.not_mem_nil⟩

/-- A subscription that is taken back, and an emit to a callback of another
module, which has reset the environment. -/
def takenBack : List ScriptCall :=
  [.op (.connect 0 [120] 7 []), .op (.disconnect 0 [120] 7 true), .enter 5, .reset]

/-- The list of `x` is made, joined, left and dropped. -/
theorem failed_load_restored_sample :
    (({} : Loader).load 0 [] (withoutFiles takenBack)).1 = false ∧
      Restored {} (({} : Loader).load 0 [] (withoutFiles takenBack)).2 0 := by
  have hfailed : (({} : Loader).load 0 [] (withoutFiles takenBack)).1 = false := by
    decide +kernel
  refine ⟨hfailed, (failed_load_restored_iff {} 0 _ fresh_start hfailed).mpr ⟨rfl, ?_⟩⟩
  intro table event
  by_cases hevent : event = [120]
  · subst hevent
    cases table with
    | plain => exact ⟨by decide +kernel, by decide +kernel⟩
    | identified => exact ⟨by decide +kernel, by decide +kernel⟩
  · have hmoves : listMoves table event {} (scriptOps takenBack) = [] := by
      simp [listMoves, takenBack, scriptOps, Op.moves, hevent]
    show Undone (listMoves table event {} (scriptOps takenBack)) _
    rw [hmoves]
    exact (replay_eq_self_iff [] _).mp rfl

/-- A subscription, and then no files: the list holds the deleted module, and
its sandbox is in force. -/
theorem failed_load_remains :
    (({} : Loader).load 0 [] (withoutFiles [.op (.connect 0 [120] 7 [])])).1 = false ∧
      (({} : Loader).load 0 []
        (withoutFiles [.op (.connect 0 [120] 7 [])])).2.registry.listed [120] = [0] ∧
      (({} : Loader).load 0 []
        (withoutFiles [.op (.connect 0 [120] 7 [])])).2.environment = .sandbox 0 ∧
      ¬ Restored {} (({} : Loader).load 0 []
        (withoutFiles [.op (.connect 0 [120] 7 [])])).2 0 := by
  have hlisted : (({} : Loader).load 0 []
      (withoutFiles [.op (.connect 0 [120] 7 [])])).2.registry.listed [120] = [0] := by
    decide +kernel
  refine ⟨by decide +kernel, hlisted, by decide +kernel, fun hrestored => ?_⟩
  have hgone := (hrestored.gone [120]).1
  rw [hlisted] at hgone
  exact hgone List.mem_cons_self

end Loader

end LoginServer.Core
