import LoginServer.Core.RegistryConsistency
import LoginServer.Core.History

/-!
# `ModuleManager::loadModules` and `Module::load`

The directories of `modules.lua` are loaded one by one.  `Module::load` puts
the sandbox of the new module into force, runs its `settings.lua`, tests
`m_dependencies`, and runs the files that `settings.lua` names; it can give up
on five ways out.

A script is what it does to the registry and to the environment in force.  It
comes to other modules through the events it emits, whose callbacks run each
in the sandbox of its own module; the environment is reset only when a
callback returns without an error.

## Main results

* `environment_runCalls` — the environment that a script leaves.
* `load_fst`, `load_of_not_loads` — the directories that load, and what the others
  leave behind.
-/

namespace LoginServer.Core

open LoginServer.Network (Bytes)

/-! ## What is loaded -/

/-- The table that global names are looked up in. -/
inductive Environment where
  | global
  | sandbox (module : ModuleId)
  deriving DecidableEq, Repr

/-- One effect of a running script. -/
inductive ScriptCall where
  | op (op : Op)
  /-- a callback is called in the sandbox of its module -/
  | enter (module : ModuleId)
  /-- and has returned without an error -/
  | reset

def ScriptCall.environment : ScriptCall → Option Environment
  | .op _ => none
  | .enter module => some (.sandbox module)
  | .reset => some .global

/-- The environment that the last callback has left, if there was one. -/
def lastEnvironment : List ScriptCall → Option Environment
  | [] => none
  | call :: calls => (lastEnvironment calls).or call.environment

/-- The operations among the effects. -/
def scriptOps : List ScriptCall → List Op
  | [] => []
  | .op op :: calls => op :: scriptOps calls
  | _ :: calls => scriptOps calls

/-- A Lua chunk: what it does before it ends or raises an error. -/
structure Chunk where
  compiles : Bool := true
  calls : List ScriptCall := []
  raises : Bool := false

/-- A file of the module, and the `init` function it defines. -/
structure ModuleFile where
  isRegularFile : Bool := true
  chunk : Chunk := {}
  init : Option (List ScriptCall) := none

/-- `settings.lua`, with the tables it declares; `files` is looked up in the
environment that is in force, which is the module's own (`none`) unless a
callback has left another. -/
structure Settings where
  chunk : Chunk := {}
  dependencies : List Bytes := []
  files : Option Environment → Option (List ModuleFile)

/-- An entry of `modules.lua`: its path, and what is found there. -/
structure ModuleEntry where
  path : Bytes
  isDirectory : Bool := true
  settings : Option Settings := none
  /-- `const.lua` -/
  constFile : Option ModuleFile := none
  /-- what the callbacks of `onLoadModule` do -/
  onLoadModule : List ScriptCall := []

/-- The part of the path behind its last `/` or `\`. -/
def ModuleEntry.name (entry : ModuleEntry) : Bytes :=
  (entry.path.reverse.takeWhile fun c => c ≠ 47 ∧ c ≠ 92).reverse

/-- The `dependencies` table of `settings.lua`. -/
def ModuleEntry.dependencies (entry : ModuleEntry) : List Bytes :=
  match entry.settings with
  | some settings => settings.dependencies
  | none => []

/-- A module in `m_modules`, with what it declared. -/
structure LoadedModule where
  name : Bytes
  module : ModuleId
  dependencies : List Bytes
  deriving DecidableEq

structure Loader where
  registry : Registry := {}
  environment : Environment := .global
  /-- `m_modules`, in the order of the insertions -/
  modules : List LoadedModule := []
  /-- how many modules were constructed -/
  created : Nat := 0

namespace Loader

/-! ## Running scripts -/

def runCall (s : Loader) : ScriptCall → Loader
  | .op op => { s with registry := op.apply s.registry }
  | .enter module => { s with environment := .sandbox module }
  | .reset => { s with environment := .global }

def runCalls (s : Loader) (calls : List ScriptCall) : Loader := calls.foldl runCall s

/-- `LuaScript::loadFile`; `false` for -1. -/
def loadFile (s : Loader) (chunk : Chunk) : Bool × Loader :=
  if chunk.compiles then (!chunk.raises, s.runCalls chunk.calls) else (false, s)

/-! ## Loading -/

/-- `ModuleManager::isModuleLoaded`. -/
def isModuleLoaded (s : Loader) (name : Bytes) : Bool :=
  s.modules.any fun m => m.name = name

/-- One file in the loop of `Module::loadFiles`. -/
def loadModuleFile (s : Loader) (file : ModuleFile) : Loader :=
  if file.isRegularFile then
    match s.loadFile file.chunk with
    | (false, s) => s
    | (true, s) =>
        match file.init with
        | some calls => s.runCalls calls
        | none => s
  else s

/-- `Module::loadFiles`; `files` is what the lookup of the table gave. -/
def loadFiles (s : Loader) (entry : ModuleEntry) (files : Option (List ModuleFile)) :
    Bool × Loader :=
  match files with
  | none => (false, s)
  | some files => (true, (entry.constFile.toList ++ files).foldl loadModuleFile s)

/-- `Module::load`, for the module `this` and its `m_dependencies`. -/
def load (s : Loader) (this : ModuleId) (dependencies : List Bytes) (entry : ModuleEntry) :
    Bool × Loader :=
  let s := { s with environment := .sandbox this }
  if entry.isDirectory then
    match entry.settings with
    | none => (false, s)
    | some settings =>
        match s.loadFile settings.chunk with
        | (false, s) => (false, s)
        | (true, s) =>
            if dependencies.all s.isModuleLoaded then
              match s.loadFiles entry (settings.files (lastEnvironment settings.chunk.calls)) with
              | (false, s) => (false, s)
              | (true, s) =>
                  (true, { s with environment := .global }.runCalls entry.onLoadModule)
            else (false, s)
  else (false, s)

/-- The body of the loop in `loadModules`.  Nothing calls `loadDependencies`,
so the `m_dependencies` of a new module are empty. -/
def loadModule (s : Loader) (entry : ModuleEntry) : Loader :=
  if entry.isDirectory then
    let this := s.created
    match { s with created := s.created + 1 }.load this [] entry with
    | (true, s) =>
        if s.isModuleLoaded entry.name then s
        else { s with modules := s.modules ++ [⟨entry.name, this, entry.dependencies⟩] }
    | (false, s) => s
  else s

/-! ## What scripts change -/

@[simp] theorem runCalls_nil (s : Loader) : s.runCalls [] = s := rfl

@[simp] theorem runCalls_cons (s : Loader) (call : ScriptCall) (calls : List ScriptCall) :
    s.runCalls (call :: calls) = (s.runCall call).runCalls calls := rfl

theorem registry_runCalls (calls : List ScriptCall) (s : Loader) :
    (s.runCalls calls).registry = s.registry.applyAll (scriptOps calls) := by
  induction calls generalizing s with
  | nil => rfl
  | cons call calls ih =>
      rw [runCalls_cons, ih]
      cases call <;> rfl

/-- The environment a script leaves behind. -/
theorem environment_runCalls (calls : List ScriptCall) (s : Loader) :
    (s.runCalls calls).environment = (lastEnvironment calls).getD s.environment := by
  induction calls generalizing s with
  | nil => rfl
  | cons call calls ih =>
      rw [runCalls_cons, ih, lastEnvironment]
      cases hlast : lastEnvironment calls with
      | some environment => rfl
      | none => cases call <;> rfl

/-- No script comes to `m_modules`. -/
theorem modules_runCalls (calls : List ScriptCall) (s : Loader) :
    (s.runCalls calls).modules = s.modules := by
  induction calls generalizing s with
  | nil => rfl
  | cons call calls ih =>
      rw [runCalls_cons, ih]
      cases call <;> rfl

theorem modules_loadFile (s : Loader) (chunk : Chunk) :
    (s.loadFile chunk).2.modules = s.modules := by
  unfold loadFile
  split
  · exact modules_runCalls _ s
  · rfl

theorem modules_loadModuleFile (s : Loader) (file : ModuleFile) :
    (s.loadModuleFile file).modules = s.modules := by
  have hchunk := modules_loadFile s file.chunk
  unfold loadModuleFile
  split
  · split
    · rename_i hresult
      rw [hresult] at hchunk
      exact hchunk
    · rename_i hresult
      rw [hresult] at hchunk
      split
      · exact (modules_runCalls _ _).trans hchunk
      · exact hchunk
  · rfl

theorem modules_loadFiles (s : Loader) (entry : ModuleEntry)
    (files : Option (List ModuleFile)) : (s.loadFiles entry files).2.modules = s.modules := by
  unfold loadFiles
  split
  · rfl
  · generalize entry.constFile.toList ++ _ = all
    dsimp only
    induction all generalizing s with
    | nil => rfl
    | cons file all ih => exact (ih _).trans (modules_loadModuleFile s file)

theorem modules_load (s : Loader) (this : ModuleId) (dependencies : List Bytes)
    (entry : ModuleEntry) : (s.load this dependencies entry).2.modules = s.modules := by
  unfold load
  dsimp only
  split
  · split
    · rfl
    · rename_i settings _
      have hchunk := modules_loadFile { s with environment := .sandbox this } settings.chunk
      split
      · rename_i hresult
        rw [hresult] at hchunk
        exact hchunk
      · rename_i t hresult
        rw [hresult] at hchunk
        split
        · have hfiles := modules_loadFiles t entry
            (settings.files (lastEnvironment settings.chunk.calls))
          split
          · rename_i hloaded
            rw [hloaded] at hfiles
            exact hfiles.trans hchunk
          · rename_i hloaded
            rw [hloaded] at hfiles
            exact (modules_runCalls _ _).trans (hfiles.trans hchunk)
        · exact hchunk
  · rfl

end Loader

/-- The directory loads, if no dependency stands in the way. -/
def ModuleEntry.loads (entry : ModuleEntry) : Bool :=
  match entry.settings with
  | none => false
  | some settings =>
      entry.isDirectory && settings.chunk.compiles && !settings.chunk.raises &&
        (settings.files (lastEnvironment settings.chunk.calls)).isSome

namespace Loader

/-- The effects of `settings.lua`, which runs if it is there and compiles. -/
def settingsCalls (entry : ModuleEntry) : List ScriptCall :=
  if entry.isDirectory then
    match entry.settings with
    | none => []
    | some settings => if settings.chunk.compiles then settings.chunk.calls else []
  else []

/-- The state after any of the five ways out is the one that `settings.lua`
has left in the sandbox. -/
theorem load_of_not_loads {entry : ModuleEntry} (h : entry.loads = false) (s : Loader)
    (this : ModuleId) :
    s.load this [] entry =
      (false, { s with environment := .sandbox this }.runCalls (settingsCalls entry)) := by
  unfold ModuleEntry.loads at h
  unfold load settingsCalls
  dsimp only
  cases hdirectory : entry.isDirectory with
  | false => rfl
  | true =>
      cases hsettings : entry.settings with
      | none => rfl
      | some settings =>
          rw [hsettings] at h
          cases hcompiles : settings.chunk.compiles with
          | false => simp [loadFile, hcompiles]
          | true =>
              cases hraises : settings.chunk.raises with
              | true => simp [loadFile, hcompiles, hraises]
              | false =>
                  have hfiles : settings.files (lastEnvironment settings.chunk.calls) = none := by
                    simpa [hdirectory, hcompiles, hraises] using h
                  simp [loadFile, loadFiles, hcompiles, hraises, hfiles]

/-- Whether a module loads is a matter of its directory alone. -/
theorem load_fst (s : Loader) (this : ModuleId) (entry : ModuleEntry) :
    (s.load this [] entry).1 = entry.loads := by
  cases h : entry.loads with
  | false => rw [load_of_not_loads h]
  | true =>
      unfold ModuleEntry.loads at h
      cases hsettings : entry.settings with
      | none =>
          rw [hsettings] at h
          cases h
      | some settings =>
          simp only [hsettings, Bool.and_eq_true, Bool.not_eq_true'] at h
          obtain ⟨⟨⟨hdirectory, hcompiles⟩, hraises⟩, hsome⟩ := h
          obtain ⟨files, hfiles⟩ := Option.isSome_iff_exists.mp hsome
          simp [load, loadFile, loadFiles, hsettings, hdirectory, hcompiles, hraises, hfiles]

end Loader

end LoginServer.Core
