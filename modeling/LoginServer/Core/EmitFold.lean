import LoginServer.Core.Emit

/-!
# An emit as a fold over its calls

The loops of an emit do not look at the results.  An emit therefore makes the
same calls whatever its callbacks return, and its results are a fold over the
calls.

## Main results

* `emitWith_eq_map` — an emit is the walk without results, and a fold.
-/

namespace LoginServer.Core

open LoginServer.Verified

/-! ## The walk and the fold -/

section
variable {ρ : Type}

/-- A walk with results put into it. -/
def Walk.fill (results : ρ) (s : Walk Unit) : Walk ρ :=
  { registry := s.registry
    modules := s.modules
    walked := s.walked
    callbacks := s.callbacks
    results
    calls := s.calls }

/-- The results after the first `n` invocations. -/
def collected (behaviour : Behaviour) (collect : ρ → Option (List LuaResult) → ρ)
    (start : ρ) :
    Nat → ρ
  | 0 => start
  | n + 1 => collect (collected behaviour collect start n) (behaviour n).results

/-- The walk with the results of the calls it has made. -/
def Walk.filled (behaviour : Behaviour) (collect : ρ → Option (List LuaResult) → ρ)
    (start : ρ)
    (s : Walk Unit) : Walk ρ :=
  s.fill (collected behaviour collect start s.calls.length)

variable {t : Topic} {spare : Spare} {behaviour behaviour' : Behaviour}
  {collect : ρ → Option (List LuaResult) → ρ} {start : ρ}

theorem Walk.apply_results (s : Walk ρ) (ops : List Op) :
    (ops.foldl (Walk.apply t) s).results = s.results ∧
      (ops.foldl (Walk.apply t) s).calls = s.calls := by
  induction ops generalizing s with
  | nil => exact ⟨rfl, rfl⟩
  | cons op ops ih => exact ih (s.apply t op)

theorem Walk.fill_ops (results : ρ) (ops : List Op) (s : Walk Unit) :
    ops.foldl (Walk.apply t) (s.fill results) = (ops.foldl (Walk.apply t) s).fill results := by
  induction ops generalizing s with
  | nil => rfl
  | cons op ops ih => exact ih (s.apply t op)

section
variable (hops : ∀ k, (behaviour' k).ops = (behaviour k).ops)
include hops

theorem Walk.invoke_filled (i : Nat) (r : Registration) (s : Walk Unit) :
    (s.filled behaviour collect start).invoke t behaviour collect i r =
      (s.invoke t behaviour' (fun _ _ => ()) i r).map (Walk.filled behaviour collect start) := by
  unfold Walk.invoke
  show (s.modules.read i).bind _ = ((s.modules.read i).bind _).map _
  cases s.modules.read i with
  | none => rfl
  | some env =>
      let call : Call := ⟨env, r.serial, (s.registry.view t).snapshot⟩
      let s₁ : Walk Unit := { s with calls := s.calls ++ [call] }
      let ops := (behaviour s.calls.length).ops
      let s₂ := ops.foldl (Walk.apply t) s₁
      have hfill (c : ρ) : ops.foldl (Walk.apply t) (s₁.fill c) = s₂.fill c :=
        Walk.fill_ops c ops s₁
      have hfilled : Walk.fill (collected behaviour collect start (s.calls.length + 1)) s₂ =
          s₂.filled behaviour collect start := by
        have hcalls : s₂.calls = s.calls ++ [call] := (Walk.apply_results s₁ ops).2
        rw [Walk.filled, hcalls, List.length_append, List.length_singleton]
      let c := collected behaviour collect start s.calls.length
      show ((ops.foldl (Walk.apply t) (s₁.fill c)).modules.read i).bind (fun module =>
          some (Walk.apply t
            { ops.foldl (Walk.apply t) (s₁.fill c) with
              results := collect (ops.foldl (Walk.apply t) (s₁.fill c)).results
                (behaviour s.calls.length).results }
            (onceCheck t module r))) =
        ((((behaviour' s.calls.length).ops.foldl (Walk.apply t) s₁).modules.read i).bind
          fun module => some (((behaviour' s.calls.length).ops.foldl (Walk.apply t) s₁).apply t
            (onceCheck t module r))).map _
      rw [hfill c, hops]
      show (s₂.modules.read i).bind (fun module =>
          some ((Walk.fill (collected behaviour collect start (s.calls.length + 1)) s₂).apply t
            (onceCheck t module r))) = _
      rw [hfilled]
      cases s₂.modules.read i with
      | none => rfl
      | some module => rfl

theorem walkCallbacks_filled (i left j : Nat) (s : Walk Unit) :
    walkCallbacks t behaviour collect i left j (s.filled behaviour collect start) =
      (walkCallbacks t behaviour' (fun _ _ => ()) i left j s).map
        (Walk.filled behaviour collect start) := by
  induction left generalizing j s with
  | zero => rfl
  | succ left ih =>
      unfold walkCallbacks
      show (s.callbacks.read j).bind _ = ((s.callbacks.read j).bind _).map _
      cases s.callbacks.read j with
      | none => rfl
      | some r =>
          show ((s.filled behaviour collect start).invoke t behaviour collect i r).bind _ =
            ((s.invoke t behaviour' (fun _ _ => ()) i r).bind _).map _
          rw [Walk.invoke_filled hops]
          cases s.invoke t behaviour' (fun _ _ => ()) i r with
          | none => rfl
          | some s₁ => exact ih (j + 1) s₁

theorem walkModules_filled (left i : Nat) (s : Walk Unit) :
    walkModules t spare behaviour collect left i (s.filled behaviour collect start) =
      (walkModules t spare behaviour' (fun _ _ => ()) left i s).map
        (Walk.filled behaviour collect start) := by
  induction left generalizing i s with
  | zero => rfl
  | succ left ih =>
      unfold walkModules
      show (s.modules.read i).bind _ = ((s.modules.read i).bind _).map _
      cases s.modules.read i with
      | none => rfl
      | some module =>
          let callbacks := (s.registry.callbackVector t module).getD []
          let s₁ : Walk Unit :=
            { s with
              walked := module
              callbacks := .ofList callbacks (spare.callbacks module) }
          show (walkCallbacks t behaviour collect i callbacks.length 0
              (s₁.filled behaviour collect start)).bind _ =
            ((walkCallbacks t behaviour' (fun _ _ => ()) i callbacks.length 0 s₁).bind _).map _
          rw [walkCallbacks_filled hops]
          cases walkCallbacks t behaviour' (fun _ _ => ()) i callbacks.length 0 s₁ with
          | none => rfl
          | some s₂ => exact ih (i + 1) s₂

theorem walkIdentified_filled (left i : Nat) (callback : Int) (s : Walk Unit) :
    walkIdentified t behaviour collect left i callback (s.filled behaviour collect start) =
      (walkIdentified t behaviour' (fun _ _ => ()) left i callback s).map
        (Walk.filled behaviour collect start) := by
  induction left generalizing i callback s with
  | zero => rfl
  | succ left ih =>
      unfold walkIdentified
      show (s.modules.read i).bind _ = ((s.modules.read i).bind _).map _
      cases s.modules.read i with
      | none => rfl
      | some module =>
          let s₁ : Walk Unit := s.apply t (.openEventMap module t.event)
          have hopened : (s.filled behaviour collect start).apply t
              (.openEventMap module t.event) = s₁.filled behaviour collect start := rfl
          have hregistry : (s₁.filled behaviour collect start).registry = s₁.registry := rfl
          simp only [Option.bind_some, hopened, hregistry]
          cases hhead : (s₁.registry.registrations t module).head? with
          | none => exact ih (i + 1) callback s₁
          | some r =>
              by_cases hnew : r.callback ≠ callback
              · simp only [if_pos hnew]
                rw [Walk.invoke_filled hops]
                cases s₁.invoke t behaviour' (fun _ _ => ()) i r with
                | none => rfl
                | some s₂ => exact ih (i + 1) r.callback s₂
              · simp only [if_neg hnew]
                exact ih (i + 1) callback s₁

/-- Any emit makes the calls of the walk without results, and its results are
the fold over them.  The walk depends on what the callbacks do, not on what
they return. -/
theorem emitWith_eq_map (reg : Registry) :
    emitWith t spare behaviour collect start reg =
      (emitNoRet t spare behaviour' reg).map (Walk.filled behaviour collect start) := by
  unfold emitNoRet emitWith
  by_cases ht : t.identifier.isEmpty = true
  · rw [if_pos ht, if_pos ht]
    cases reg.subscribers t with
    | none => rfl
    | some modules =>
        exact walkModules_filled hops modules.length 0
          { registry := reg, modules := .ofList modules spare.modules, results := () }
  · rw [if_neg ht, if_neg ht]
    exact walkIdentified_filled hops _ 0 0
      { registry := reg.openIdentifiedEvent t.event
        modules := .ofList (((reg.openIdentifiedEvent t.event).subscribers t).getD [])
          spare.modules
        results := () }

end

end

end LoginServer.Core
