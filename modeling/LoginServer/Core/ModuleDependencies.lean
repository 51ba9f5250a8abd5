import LoginServer.Core.ModuleLoader

/-!
# Modules and their dependencies

`Module::load` refuses a module that has a dependency which is not loaded.
It looks into `m_dependencies`, which `Module::loadDependencies` would fill
from the table that `settings.lua` declares; but nothing calls it, and every
module that is otherwise in order is accepted.

## Main results

* `Closed.loadModule` — an accepted module whose dependencies are loaded.
* `respects_dependencies_iff` — the lists of modules in a good order.
-/

namespace LoginServer.Core

open LoginServer.Network (Bytes)
open LoginServer.Verified

namespace Loader

def step (entry : ModuleEntry) (s : Loader) : Option Loader := some (s.loadModule entry)

/-- The dependencies of every loaded module were inserted before it. -/
def Closed (s : Loader) : Prop :=
  ∀ (i : Nat) (m : LoadedModule), s.modules[i]? = some m →
    ∀ d ∈ m.dependencies, ∃ k ∈ s.modules.take i, k.name = d

/-- `Module::load` refuses the module if a dependency is not loaded. -/
def Refuses (entry : ModuleEntry) (s : Loader) : Prop :=
  (s.load s.created [] entry).1 = true → ∀ d ∈ entry.dependencies, s.isModuleLoaded d = true

/-- Every state on the way is closed, and every module with an unloaded
dependency is refused. -/
def RespectsDependencies (entries : List ModuleEntry) (s : Loader) : Prop :=
  PartialRun.Throughout step Closed entries s ∧ PartialRun.Obeys step Refuses entries s

theorem isModuleLoaded_iff {s : Loader} {name : Bytes} :
    s.isModuleLoaded name = true ↔ ∃ m ∈ s.modules, m.name = name := by
  simp [isModuleLoaded]

/-! ## One module -/

/-- Only a directory that loads adds a module, and only under a new name. -/
theorem modules_loadModule (s : Loader) (entry : ModuleEntry) :
    (s.loadModule entry).modules =
      if entry.loads = true ∧ s.isModuleLoaded entry.name = false then
        s.modules ++ [⟨entry.name, s.created, entry.dependencies⟩]
      else s.modules := by
  have hmodules := modules_load { s with created := s.created + 1 } s.created [] entry
  have hloads := load_fst { s with created := s.created + 1 } s.created entry
  unfold loadModule
  split
  · dsimp only
    split
    · rename_i t hresult
      rw [hresult] at hmodules hloads
      have hsame : t.isModuleLoaded entry.name = s.isModuleLoaded entry.name := by
        rw [isModuleLoaded, hmodules]
        rfl
      rw [← hloads, hsame]
      cases s.isModuleLoaded entry.name with
      | true => exact hmodules
      | false => exact congrArg (· ++ _) hmodules
    · rename_i hresult
      rw [hresult] at hmodules hloads
      rw [← hloads]
      exact hmodules
  · rename_i hdirectory
    have hnot : entry.loads = false := by
      unfold ModuleEntry.loads
      split
      · rfl
      · simp [hdirectory]
    rw [hnot]
    rfl

/-- The names in `m_modules` are those of the directories that load. -/
theorem isModuleLoaded_loadModule (s : Loader) (entry : ModuleEntry) (name : Bytes) :
    (s.loadModule entry).isModuleLoaded name = true ↔
      s.isModuleLoaded name = true ∨ (entry.loads = true ∧ entry.name = name) := by
  rw [isModuleLoaded, modules_loadModule]
  split
  · rename_i hboth
    simp [isModuleLoaded, hboth.1]
  · rename_i hneither
    show s.isModuleLoaded name = true ↔ _
    rw [iff_self_or]
    rintro ⟨hloads, rfl⟩
    simpa [hloads] using hneither

/-- Inserting a module behind its dependencies. -/
theorem Closed.loadModule {s : Loader} {entry : ModuleEntry} (h : s.Closed)
    (hdependencies : entry.loads = true →
      ∀ d ∈ entry.dependencies, s.isModuleLoaded d = true) :
    (s.loadModule entry).Closed := by
  intro i m hm d hd
  rw [modules_loadModule] at hm ⊢
  split at hm
  · rename_i hboth
    rw [if_pos hboth, List.take_append]
    rw [List.getElem?_append] at hm
    split at hm
    · obtain ⟨k, hk, hname⟩ := h i m hm d hd
      exact ⟨k, List.mem_append_left _ hk, hname⟩
    · rename_i hi
      have hlast : m = ⟨entry.name, s.created, entry.dependencies⟩ :=
        List.mem_singleton.mp (List.mem_of_getElem? hm)
      subst hlast
      obtain ⟨k, hk, hname⟩ := isModuleLoaded_iff.mp (hdependencies hboth.1 d hd)
      rw [List.take_of_length_le (Nat.le_of_not_lt hi)]
      exact ⟨k, List.mem_append_left _ hk, hname⟩
  · rename_i hneither
    rw [if_neg hneither]
    exact h i m hm d hd

/-! ## The whole list -/

/-- Every directory that loads declares only what was loaded before it. -/
def DeclaresLoaded : List Bytes → List ModuleEntry → Prop
  | _, [] => True
  | loaded, entry :: entries =>
      (entry.loads = true → ∀ d ∈ entry.dependencies, d ∈ loaded) ∧
        DeclaresLoaded (if entry.loads then entry.name :: loaded else loaded) entries

/-- A list of the names in `m_modules`. -/
def Named (s : Loader) (loaded : List Bytes) : Prop :=
  ∀ name, s.isModuleLoaded name = true ↔ name ∈ loaded

theorem Named.loadModule {s : Loader} {loaded : List Bytes} (h : s.Named loaded)
    (entry : ModuleEntry) :
    (s.loadModule entry).Named (if entry.loads then entry.name :: loaded else loaded) := by
  intro name
  rw [isModuleLoaded_loadModule, h name]
  cases entry.loads with
  | false => simp
  | true => simp [or_comm, eq_comm]

/-- The modules that `load` refuses and accepts, by the list alone. -/
theorem obeys_refuses_iff (entries : List ModuleEntry) :
    ∀ (s : Loader) (loaded : List Bytes), s.Named loaded →
      (PartialRun.Obeys step Refuses entries s ↔ DeclaresLoaded loaded entries) := by
  induction entries with
  | nil => exact fun _ _ _ => Iff.rfl
  | cons entry entries ih =>
      intro s loaded h
      have hrefuses : Refuses entry s ↔
          (entry.loads = true → ∀ d ∈ entry.dependencies, d ∈ loaded) := by
        rw [Refuses, load_fst]
        simp only [h _]
      have hrest : (∀ t, step entry s = some t → PartialRun.Obeys step Refuses entries t) ↔
          PartialRun.Obeys step Refuses entries (s.loadModule entry) := by
        simp [step]
      rw [PartialRun.Obeys, hrefuses, hrest, ih _ _ (h.loadModule entry)]
      rfl

/-- Where no module is accepted wrongly, every state on the way is closed. -/
theorem throughout_closed (entries : List ModuleEntry) :
    ∀ s : Loader, s.Closed → PartialRun.Obeys step Refuses entries s →
      PartialRun.Throughout step Closed entries s := by
  induction entries with
  | nil => exact fun s h _ => PartialRun.throughout_nil.mpr h
  | cons entry entries ih =>
      intro s h hobeys
      have hnext : (s.loadModule entry).Closed := by
        apply h.loadModule
        rw [← load_fst s s.created]
        exact hobeys.1
      exact (PartialRun.throughout_cons rfl).mpr ⟨h, ih _ hnext (hobeys.2 _ rfl)⟩

/-- Loading a list of modules respects their dependencies if and only if the
list is in an order in which every module that loads declares only modules
that have loaded before it. -/
theorem respects_dependencies_iff (s : Loader) (entries : List ModuleEntry) :
    RespectsDependencies entries { s with modules := [] } ↔ DeclaresLoaded [] entries := by
  have hnamed : Named { s with modules := [] } [] := fun name => by simp [isModuleLoaded]
  have hclosed : Closed { s with modules := [] } := fun i m hm => by simp at hm
  rw [RespectsDependencies, obeys_refuses_iff entries _ [] hnamed]
  constructor
  · exact fun h => h.2
  · intro h
    refine ⟨?_, h⟩
    apply throughout_closed entries _ hclosed
    exact (obeys_refuses_iff entries _ [] hnamed).mpr h

/-- A module that declares one dependency, and nothing else. -/
def dependentModule : ModuleEntry where
  path := [97]
  settings := some { dependencies := [[98]], files := fun _ => some [] }

/-- It is loaded without the other. -/
theorem dependency_not_loaded :
    (({} : Loader).loadModule dependentModule).isModuleLoaded [97] = true ∧
      (({} : Loader).loadModule dependentModule).isModuleLoaded [98] = false ∧
      ¬ RespectsDependencies [dependentModule] {} := by
  refine ⟨by decide +kernel, by decide +kernel, fun h => ?_⟩
  have hrefuses : Refuses dependentModule {} := h.2.1
  have hloaded := hrefuses (by decide +kernel) [98] (by decide)
  revert hloaded
  decide +kernel

end Loader

end LoginServer.Core
