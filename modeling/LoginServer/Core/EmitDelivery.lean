import LoginServer.Core.EmitTurns

/-!
# Delivery of an emitted event

The loops walk vectors that the callbacks and `checkConnectOnce` change.  As
long as nothing is changed that is still walked, they take the turns they are
meant to take, and everybody is served once.  Where something is changed, a
module moves into a cell the loop has passed, or the last one is read twice.

## Main results

* `walkModules_eq`, `walkIdentified_eq` — a quiet emit takes its turns.
* `emits_exactly_once` — a quiet emit serves everybody once.
-/

namespace LoginServer.Core

open LoginServer.Verified
open LoginServer.Verified.InOrderDelivery

section
variable {ρ : Type} {t : Topic} {behaviour : Behaviour}
  (collect : ρ → Option (List LuaResult) → ρ)

/-- The storage of the outer loop is the list of the modules. -/
structure Walk.Walking (s : Walk ρ) (t : Topic) (modules : List ModuleId) : Prop where
  storage : s.modules.Shows modules
  list : (s.registry.view t).subscribers = modules

/-- The storage of the inner loop is the list of the callbacks. -/
structure Walk.WalkingCallbacks (s : Walk ρ) (t : Topic) (rs : List Registration) : Prop where
  storage : s.callbacks.Shows rs
  list : s.registry.registrations t s.walked = rs

theorem subscribers_of_view {reg : Registry} {modules : List ModuleId}
    (h : (reg.view t).subscribers = modules) (hne : modules ≠ []) :
    reg.subscribers t = some modules := by
  change (reg.subscribers t).getD [] = modules at h
  cases hlist : reg.subscribers t with
  | none =>
      rw [hlist] at h
      exact absurd h.symm hne
  | some list =>
      rw [hlist] at h
      exact congrArg some h

theorem callbackVector_of_registrations {reg : Registry} {m : ModuleId}
    {rs : List Registration} (ht : t.identifier.isEmpty = true)
    (h : reg.registrations t m = rs) (hne : rs ≠ []) : reg.callbackVector t m = some rs := by
  rw [Registry.registrations, Module.registrations_plain ht] at h
  change (reg.callbackVector t m).getD [] = rs at h
  cases hlist : reg.callbackVector t m with
  | none =>
      rw [hlist] at h
      exact absurd h.symm hne
  | some list =>
      rw [hlist] at h
      exact congrArg some h

/-- An operation that keeps the list of the modules is not noticed. -/
theorem Walk.Walking.apply {s : Walk ρ} {modules : List ModuleId} (h : s.Walking t modules)
    (hne : modules ≠ []) {op : Op} (hkeep : KeepsModules t s.registry (op.apply s.registry)) :
    (s.apply t op).Walking t modules := by
  have hlist : ((op.apply s.registry).view t).subscribers = modules := hkeep.trans h.list
  constructor
  · show (s.modules.follow ((op.apply s.registry).subscribers t)).Shows modules
    rw [subscribers_of_view hlist hne, LiveVector.follow_same h.storage]
    exact h.storage
  · exact hlist

theorem Walk.WalkingCallbacks.apply {s : Walk ρ} {rs : List Registration}
    (h : s.WalkingCallbacks t rs) (ht : t.identifier.isEmpty = true) (hne : rs ≠ []) {op : Op}
    (hkeep : KeepsCallbacks t s.walked s.registry (op.apply s.registry)) :
    (s.apply t op).WalkingCallbacks t rs := by
  have hlist : (op.apply s.registry).registrations t s.walked = rs := hkeep.trans h.list
  constructor
  · show (s.callbacks.follow ((op.apply s.registry).callbackVector t s.walked)).Shows rs
    rw [callbackVector_of_registrations ht hlist hne, LiveVector.follow_same h.storage]
    exact h.storage
  · exact hlist

/-- What the operations of a quiet callback leave of the loops. -/
structure Walk.Followed (s s' : Walk ρ) (t : Topic) (modules : List ModuleId)
    (m : ModuleId) (last : Bool) (registry : Registry) : Prop where
  registry : s'.registry = registry
  calls : s'.calls = s.calls
  walked : s'.walked = s.walked
  walking : s'.Walking t modules
  callbacks :
    ∀ rs, rs ≠ [] → t.identifier.isEmpty = true → s.walked = m → last = false →
    s.WalkingCallbacks t rs → s'.WalkingCallbacks t rs

theorem Walk.apply_quiet {modules : List ModuleId} (hne : modules ≠ []) {m : ModuleId}
    {last : Bool} {ops : List Op} {s : Walk ρ} (h : s.Walking t modules)
    (hquiet : QuietOps t m last ops s.registry) :
    s.Followed (ops.foldl (Walk.apply t) s) t modules m last (runOps ops s.registry) := by
  induction ops generalizing s with
  | nil => exact ⟨rfl, rfl, rfl, h, fun _ _ _ _ _ hrs => hrs⟩
  | cons op ops ih =>
      obtain ⟨hmodules, hcallbacks, hrest⟩ := hquiet
      have hfollowed := ih (h.apply hne hmodules) hrest
      constructor
      · exact hfollowed.registry
      · exact hfollowed.calls
      · exact hfollowed.walked
      · exact hfollowed.walking
      · intro rs hrs ht hm hlast hwalking
        apply hfollowed.callbacks rs hrs ht hm hlast
        apply hwalking.apply ht hrs
        rw [hm]
        exact hcallbacks hlast

/-- What a quiet turn leaves of the loops. -/
structure Walk.Invoked (s s' : Walk ρ) (t : Topic) (modules : List ModuleId) (m : ModuleId)
    (lastModule last : Bool) (r : Registration) (registry : Registry) : Prop where
  registry : s'.registry = registry
  turns : s'.calls.map Call.turn =
    s.calls.map Call.turn ++ [⟨r.serial, (s.registry.view t).snapshot⟩]
  walked : s'.walked = s.walked
  walking : (lastModule && last) = false → s'.Walking t modules
  callbacks :
    ∀ rs, rs ≠ [] → t.identifier.isEmpty = true → s.walked = m → last = false →
    s.WalkingCallbacks t rs → s'.WalkingCallbacks t rs

theorem Walk.invoke_quiet {modules : List ModuleId} {i : Nat} {m : ModuleId}
    (hm : modules[i]? = some m) {lastModule last : Bool} {r : Registration} {s : Walk ρ}
    (h : s.Walking t modules)
    (hquiet : QuietTurn t behaviour lastModule last m r s.calls.length s.registry) :
    ∃ s', s.invoke t behaviour collect i r = some s' ∧
      s.Invoked s' t modules m lastModule last r
        (afterTurn t behaviour m r s.calls.length s.registry) := by
  obtain ⟨hops, hmodules, hcallbacks⟩ := hquiet
  have hne : modules ≠ [] := by
    rintro rfl
    cases hm
  have hread : ∀ {s : Walk ρ}, s.Walking t modules → s.modules.read i = some m := by
    intro s hs
    rw [LiveVector.read_of_shows hs.storage, hm]
  let called : Walk ρ :=
    { s with calls := s.calls ++ [⟨m, r.serial, (s.registry.view t).snapshot⟩] }
  have hcalled : called.Walking t modules := ⟨h.storage, h.list⟩
  have hfollowed := Walk.apply_quiet hne hcalled hops
  generalize hs₁ : (behaviour s.calls.length).ops.foldl (Walk.apply t) called = s₁ at hfollowed
  let collected : Walk ρ :=
    { s₁ with results := collect s₁.results (behaviour s.calls.length).results }
  have hcollected : collected.Walking t modules :=
    ⟨hfollowed.walking.storage, hfollowed.walking.list⟩
  have hinvoke : s.invoke t behaviour collect i r =
      some (collected.apply t (onceCheck t m r)) := by
    unfold Walk.invoke
    rw [hread h]
    simp only [Option.bind_eq_bind, Option.bind_some]
    show ((((behaviour s.calls.length).ops.foldl (Walk.apply t) called).modules.read i).bind
      fun module => _) = _
    rw [hs₁, hread hfollowed.walking]
    rfl
  refine ⟨_, hinvoke, ?_⟩
  have hregistry : (onceCheck t m r).apply collected.registry =
      afterTurn t behaviour m r s.calls.length s.registry := by
    show (onceCheck t m r).apply s₁.registry = _
    rw [hfollowed.registry]
    rfl
  have hbefore : collected.registry = runOps (behaviour s.calls.length).ops s.registry :=
    hfollowed.registry
  constructor
  · exact hregistry
  · show s₁.calls.map Call.turn = _
    rw [hfollowed.calls]
    exact List.map_append
  · exact hfollowed.walked
  · intro hlast
    apply hcollected.apply hne
    rw [hregistry, hbefore]
    exact hmodules hlast
  · intro rs hrs ht hwalked hlast hwalking
    have hs₁ := hfollowed.callbacks rs hrs ht hwalked hlast ⟨hwalking.storage, hwalking.list⟩
    have hcollected : collected.WalkingCallbacks t rs := ⟨hs₁.storage, hs₁.list⟩
    apply hcollected.apply ht hrs
    rw [hregistry, hbefore]
    have hm' : collected.walked = m := hfollowed.walked.trans hwalked
    rw [hm']
    exact hcallbacks hlast

/-! ## The loops -/

/-- A loop ends in a state that has taken some turns. -/
structure Walk.Took (s s' : Walk ρ) (turns : List (Turn Nat)) (registry : Registry) : Prop where
  registry : s'.registry = registry
  turns : s'.calls.map Call.turn = s.calls.map Call.turn ++ turns

theorem Walk.Took.refl (s : Walk ρ) : s.Took s [] s.registry :=
  ⟨rfl, (List.append_nil _).symm⟩

theorem Walk.Took.append {a b c : Walk ρ} {xs ys : List (Turn Nat)} {reg reg' : Registry}
    (hab : a.Took b xs reg) (hbc : b.Took c ys reg') : a.Took c (xs ++ ys) reg' :=
  ⟨hbc.registry, by rw [hbc.turns, hab.turns, List.append_assoc]⟩

theorem Walk.Took.length {s s' : Walk ρ} {turns : List (Turn Nat)} {reg : Registry}
    (h : s.Took s' turns reg) : s'.calls.length = s.calls.length + turns.length := by
  have hlength := congrArg List.length h.turns
  rw [List.length_append, List.length_map, List.length_map] at hlength
  exact hlength

/-- The inner loop, from the `done.length`-th callback on. -/
theorem walkCallbacks_eq (ht : t.identifier.isEmpty = true) {modules : List ModuleId} {i : Nat}
    {m : ModuleId} (hm : modules[i]? = some m) {lastModule : Bool}
    {rest : List Registration} (done : List Registration) {s : Walk ρ} (hwalked : s.walked = m)
    (hwalking : rest ≠ [] ∨ lastModule = false → s.Walking t modules)
    (hcallbacks : rest ≠ [] → s.WalkingCallbacks t (done ++ rest))
    (hquiet : QuietCallbacks t behaviour lastModule m rest s.calls.length s.registry) :
    ∃ s', walkCallbacks t behaviour collect i rest.length done.length s = some s' ∧
      s.Took s' (turnsOf t behaviour m rest s.calls.length s.registry)
        (afterCallbacks t behaviour m rest s.calls.length s.registry) ∧
      (lastModule = false → s'.Walking t modules) := by
  induction rest generalizing done s with
  | nil => exact ⟨s, rfl, .refl s, fun h => hwalking (Or.inr h)⟩
  | cons r rest ih =>
      have hne : r :: rest ≠ [] := List.cons_ne_nil r rest
      obtain ⟨hturn, hrest⟩ := hquiet
      obtain ⟨s₁, hinvoke, hinvoked⟩ := Walk.invoke_quiet collect hm
        (hwalking (Or.inl hne)) hturn
      have htook : s.Took s₁ [⟨r.serial, (s.registry.view t).snapshot⟩]
          (afterTurn t behaviour m r s.calls.length s.registry) :=
        ⟨hinvoked.registry, hinvoked.turns⟩
      have hlength : s₁.calls.length = s.calls.length + 1 := htook.length
      have hlast : rest ≠ [] → rest.isEmpty = false := by
        intro h
        cases rest with
        | nil => exact absurd rfl h
        | cons _ _ => rfl
      have happend : done ++ r :: rest = (done ++ [r]) ++ rest := by simp
      have hdone : done.length + 1 = (done ++ [r]).length := by simp
      rw [← hlength, ← hinvoked.registry] at hrest
      obtain ⟨s', hwalk, htook', hwalking'⟩ := ih (done ++ [r])
        (hinvoked.walked.trans hwalked)
        (by
          rintro (h | h)
          · apply hinvoked.walking
            rw [hlast h, Bool.and_false]
          · apply hinvoked.walking
            rw [h, Bool.false_and])
        (by
          intro h
          rw [← happend]
          exact hinvoked.callbacks _ (by simp) ht hwalked (hlast h) (hcallbacks hne))
        hrest
      refine ⟨s', ?_, ?_, hwalking'⟩
      · have hread : s.callbacks.read done.length = some r := by
          rw [LiveVector.read_of_shows (hcallbacks hne).storage]
          simp
        rw [List.length_cons, walkCallbacks, hread]
        simp only [Option.bind_eq_bind, Option.bind_some]
        rw [hinvoke, hdone]
        exact hwalk
      · rw [hlength, hinvoked.registry] at htook'
        exact htook.append htook'

/-- The outer loop of a plain event, from the `done.length`-th module on. -/
theorem walkModules_eq (ht : t.identifier.isEmpty = true) (spare : Spare) {ms : List ModuleId}
    (done : List ModuleId) {callback : Int} {s : Walk ρ}
    (hwalking : ms ≠ [] → s.Walking t (done ++ ms))
    (hquiet : QuietModules t behaviour ms s.calls.length callback s.registry) :
    ∃ s', walkModules t spare behaviour collect ms.length done.length s = some s' ∧
      s.Took s' (turns t behaviour ms s.calls.length s.registry)
        (afterModules t behaviour ms s.calls.length s.registry) := by
  induction ms generalizing done callback s with
  | nil => exact ⟨s, rfl, .refl s⟩
  | cons m ms ih =>
      have hwalking := hwalking (List.cons_ne_nil m ms)
      have henter : enter t m s.registry = s.registry := if_pos ht
      have hm : (done ++ m :: ms)[done.length]? = some m := by simp
      rw [QuietModules] at hquiet
      rw [turns, afterModules]
      rw [henter] at hquiet ⊢
      obtain ⟨-, hcallbacks, hmodules⟩ := hquiet
      have hvector : (s.registry.callbackVector t m).getD [] = s.registry.registrations t m := by
        rw [Registry.registrations, Module.registrations_plain ht]
        rfl
      generalize hrs : s.registry.registrations t m = rs at hcallbacks hmodules hvector ⊢
      let entered : Walk ρ :=
        { s with walked := m, callbacks := .ofList rs (spare.callbacks m) }
      obtain ⟨s₁, hwalk, htook, hwalking₁⟩ :=
        walkCallbacks_eq collect (s := entered) ht hm [] rfl
          (fun _ => ⟨hwalking.storage, hwalking.list⟩)
        (fun _ => ⟨LiveVector.shows_ofList rs _, hrs⟩) hcallbacks
      have hlength : s₁.calls.length = s.calls.length + rs.length := by
        rw [htook.length]
        rw [length_turnsOf]
      have hregistry : s₁.registry =
          afterCallbacks t behaviour m rs s.calls.length s.registry := htook.registry
      have happend : done ++ m :: ms = (done ++ [m]) ++ ms := by simp
      have hdone : done.length + 1 = (done ++ [m]).length := by simp
      rw [← hlength, ← hregistry] at hmodules
      obtain ⟨s', hwalk', htook'⟩ := ih (done ++ [m])
        (by
          intro h
          rw [← happend]
          apply hwalking₁
          cases ms with
          | nil => exact absurd rfl h
          | cons _ _ => rfl)
        hmodules
      refine ⟨s', ?_, ?_⟩
      · rw [List.length_cons, walkModules, LiveVector.read_of_shows hwalking.storage, hm]
        simp only [Option.bind_eq_bind, Option.bind_some]
        rw [hvector]
        show (walkCallbacks t behaviour collect done.length rs.length 0 entered).bind _ = _
        rw [List.length_nil] at hwalk
        rw [hwalk, hdone]
        exact hwalk'
      · rw [hlength, hregistry] at htook'
        exact Walk.Took.append ⟨htook.registry, htook.turns⟩ htook'

/-- An identifier has one callback or none. -/
theorem registrations_identified_cases (ht : ¬ t.identifier.isEmpty = true) (reg : Registry)
    (m : ModuleId) : reg.registrations t m = [] ∨ ∃ r, reg.registrations t m = [r] := by
  rw [Registry.registrations, Module.registrations_identified ht]
  cases AList.lookup t.identifier
      (((reg.module m).identifiedEventCallbacks.lookup t.event).getD ∅) with
  | none => exact Or.inl rfl
  | some r => exact Or.inr ⟨r, rfl⟩

theorem walkIdentified_succ {left i : Nat} {callback : Int} {s : Walk ρ} {m : ModuleId}
    (hread : s.modules.read i = some m) :
    walkIdentified t behaviour collect (left + 1) i callback s =
      match ((s.apply t (.openEventMap m t.event)).registry.registrations t m).head? with
      | none => walkIdentified t behaviour collect left (i + 1) callback
          (s.apply t (.openEventMap m t.event))
      | some r =>
          if r.callback ≠ callback then
            ((s.apply t (.openEventMap m t.event)).invoke t behaviour collect i r).bind fun s =>
              walkIdentified t behaviour collect left (i + 1) r.callback s
          else walkIdentified t behaviour collect left (i + 1) callback
            (s.apply t (.openEventMap m t.event)) := by
  rw [walkIdentified, hread]
  rfl

/-- The loop of an event with identifier. -/
theorem walkIdentified_eq (ht : ¬ t.identifier.isEmpty = true) {ms : List ModuleId}
    (done : List ModuleId) {callback : Int} {s : Walk ρ}
    (hwalking : ms ≠ [] → s.Walking t (done ++ ms))
    (hquiet : QuietModules t behaviour ms s.calls.length callback s.registry) :
    ∃ s', walkIdentified t behaviour collect ms.length done.length callback s = some s' ∧
      s.Took s' (turns t behaviour ms s.calls.length s.registry)
        (afterModules t behaviour ms s.calls.length s.registry) := by
  induction ms generalizing done callback s with
  | nil => exact ⟨s, rfl, .refl s⟩
  | cons m ms ih =>
      have hwalking := hwalking (List.cons_ne_nil m ms)
      have hne : done ++ m :: ms ≠ [] := by simp
      have henter : enter t m s.registry = (Op.openEventMap m t.event).apply s.registry :=
        if_neg ht
      have hm : (done ++ m :: ms)[done.length]? = some m := by simp
      have happend : done ++ m :: ms = (done ++ [m]) ++ ms := by simp
      have hdone : done.length + 1 = (done ++ [m]).length := by simp
      have hlast : ms ≠ [] → (ms.isEmpty && true) = false := by
        intro h
        cases ms with
        | nil => exact absurd rfl h
        | cons _ _ => rfl
      rw [QuietModules] at hquiet
      rw [turns, afterModules]
      rw [henter] at hquiet ⊢
      obtain ⟨hguard, hcallbacks, hmodules⟩ := hquiet
      have hopened : (s.apply t (.openEventMap m t.event)).Walking t (done ++ m :: ms) :=
        hwalking.apply hne rfl
      have hread : s.modules.read done.length = some m := by
        rw [LiveVector.read_of_shows hwalking.storage, hm]
      rw [List.length_cons, walkIdentified_succ collect hread, hdone]
      have hregistry₁ : (s.apply t (.openEventMap m t.event)).registry =
          (Op.openEventMap m t.event).apply s.registry := rfl
      have hcalls₁ : (s.apply t (.openEventMap m t.event)).calls = s.calls := rfl
      rw [← hregistry₁] at hguard hcallbacks hmodules ⊢
      rw [← hcalls₁] at hcallbacks hmodules ⊢
      generalize s.apply t (.openEventMap m t.event) = s₁ at *
      rcases registrations_identified_cases ht s₁.registry m with hnone | ⟨r, hone⟩
      · rw [hnone] at hmodules ⊢
        obtain ⟨s', hwalk, htook⟩ := ih (done ++ [m]) (s := s₁)
          (fun _ => by rw [← happend]; exact hopened) hmodules
        refine ⟨s', hwalk, ?_, ?_⟩
        · exact htook.registry
        · rw [← hcalls₁]
          exact htook.turns
      · rw [hone] at hguard hcallbacks hmodules ⊢
        have hnew : r.callback ≠ callback := hguard (by simpa using ht) r (by simp)
        obtain ⟨s₂, hinvoke, hinvoked⟩ := Walk.invoke_quiet collect hm hopened hcallbacks.1
        have htook₂ : s₁.Took s₂ [⟨r.serial, (s₁.registry.view t).snapshot⟩]
            (afterTurn t behaviour m r s₁.calls.length s₁.registry) :=
          ⟨hinvoked.registry, hinvoked.turns⟩
        have hlength : s₂.calls.length = s₁.calls.length + 1 := htook₂.length
        have hmodules₂ :
            QuietModules t behaviour ms s₂.calls.length r.callback s₂.registry := by
          rw [hlength, hinvoked.registry]
          exact hmodules
        obtain ⟨s', hwalk, htook⟩ := ih (done ++ [m]) (s := s₂)
          (by
            intro h
            rw [← happend]
            exact hinvoked.walking (hlast h))
          hmodules₂
        refine ⟨s', ?_, ?_, ?_⟩
        · show (if r.callback ≠ callback then _ else _) = _
          rw [if_pos hnew, hinvoke]
          exact hwalk
        · rw [htook.registry, hlength, hinvoked.registry]
          rfl
        · rw [htook.turns, htook₂.turns, hlength, hinvoked.registry, hcalls₁,
            List.append_assoc]
          rfl

end

/-- An emit is defined, and calls every callback that was connected when it
began and was not disconnected before its turn exactly once, in order.  One that
a turn passes over is not connected at that turn; one behind the last turn is
not connected in the end. -/
def Delivers {ρ : Type} (t : Topic) (reg : Registry) (outcome : Option (Walk ρ)) : Prop :=
  ∃ s, outcome = some s ∧
    ExactlyOnce (reg.view t).snapshot (s.calls.map Call.turn) (s.registry.view t).snapshot

theorem emitWith_delivers {ρ : Type} (t : Topic) (spare : Spare) (behaviour : Behaviour)
    (collect : ρ → Option (List LuaResult) → ρ) (results : ρ) (reg : Registry)
    (hreachable : Reachable reg) (hquiet : Quiet t behaviour reg) :
    Delivers t reg (emitWith t spare behaviour collect results reg) := by
  have hwf := wellFormed_of_reachable hreachable t
  have hstart : Later t reg (atStart t reg) := by
    unfold atStart
    split
    · exact .refl reg
    · exact later_apply (.openIdentifiedEvent t.event) reg
  obtain ⟨rest, hserve, hrest⟩ := turns_serve hwf (fun m hm => hm) hstart.grows
    (hstart.wellFormed hwf) hquiet
    (fun r (hr : r ∈ []) => absurd hr List.not_mem_nil) hwf.nodup_snapshot
  -- the loop takes the turns
  have hloop : ∃ s, emitWith t spare behaviour collect results reg = some s ∧
      s.calls.map Call.turn =
        turns t behaviour (reg.view t).subscribers 0 (atStart t reg) ∧
      s.registry = afterModules t behaviour (reg.view t).subscribers 0 (atStart t reg) := by
    unfold Quiet at hquiet
    unfold emitWith
    by_cases ht : t.identifier.isEmpty = true
    · have hat : atStart t reg = reg := if_pos ht
      rw [if_pos ht]
      rw [hat] at hquiet ⊢
      cases hlist : reg.subscribers t with
      | none =>
          have hsubscribers : (reg.view t).subscribers = [] := by
            show (reg.subscribers t).getD [] = []
            rw [hlist]
            rfl
          rw [hsubscribers]
          exact ⟨_, rfl, rfl, rfl⟩
      | some modules =>
          have hsubscribers : (reg.view t).subscribers = modules := by
            show (reg.subscribers t).getD [] = modules
            rw [hlist]
            rfl
          rw [hsubscribers] at hquiet ⊢
          obtain ⟨s, hwalk, htook⟩ := walkModules_eq collect ht spare []
            (s := { registry := reg, modules := .ofList modules spare.modules, results })
            (fun _ => ⟨LiveVector.shows_ofList _ _, hsubscribers⟩) hquiet
          exact ⟨s, hwalk, htook.turns, htook.registry⟩
    · have hat : atStart t reg = reg.openIdentifiedEvent t.event := if_neg ht
      rw [if_neg ht]
      rw [hat] at hquiet ⊢
      have hsubscribers :
          ((reg.openIdentifiedEvent t.event).view t).subscribers = (reg.view t).subscribers := by
        show (Registry.subscribers _ t).getD [] = (reg.subscribers t).getD []
        rw [Registry.subscribers_identified _ t ht, Registry.subscribers_identified _ t ht]
        unfold Registry.openIdentifiedEvent
        rw [AList.lookup_insert]
        rfl
      obtain ⟨s, hwalk, htook⟩ := walkIdentified_eq collect ht []
        (s := { registry := reg.openIdentifiedEvent t.event
                modules := .ofList (reg.view t).subscribers spare.modules, results })
        (fun _ => ⟨LiveVector.shows_ofList _ _, hsubscribers⟩) hquiet
      refine ⟨s, ?_, htook.turns, htook.registry⟩
      dsimp only
      have hmodules : ((reg.openIdentifiedEvent t.event).subscribers t).getD [] =
          (reg.view t).subscribers := hsubscribers
      rw [hmodules]
      exact hwalk
  obtain ⟨s, hemit, hturns, hregistry⟩ := hloop
  refine ⟨s, hemit, rest, ?_, ?_⟩
  · rw [hturns]
    exact hserve
  · rw [hregistry]
    exact hrest

/-- In every registry the program can reach, an emit under which nothing is
changed that is still walked delivers its event exactly once. -/
theorem emits_exactly_once (t : Topic) (spare : Spare) (behaviour : Behaviour) (reg : Registry)
    (hreachable : Reachable reg) (hquiet : Quiet t behaviour reg) :
    Delivers t reg (emitNoRet t spare behaviour reg) ∧
      (∀ nresults vecRet, Delivers t reg (emit t spare behaviour nresults vecRet reg)) ∧
      Delivers t reg (luaEmit t spare behaviour reg) := by
  refine ⟨?_, fun nresults vecRet => ?_, ?_⟩
  · exact emitWith_delivers t spare behaviour _ _ reg hreachable hquiet
  · exact emitWith_delivers t spare behaviour _ _ reg hreachable hquiet
  · exact emitWith_delivers t spare behaviour _ _ reg hreachable hquiet

def sampleTopic : Topic := ⟨[1], []⟩

/-- Two modules listen, the second one once. -/
def twoModules : List Op :=
  [.connect 0 [1] 10 [], .connectOnce 1 [1] 11 []]

/-- A quiet emit: the first callback connects to another event, and the second
registration is removed at the end. -/
theorem two_modules_delivered :
    Delivers sampleTopic (runOps twoModules {})
      (emitNoRet sampleTopic {}
        (fun k => if k = 0 then { ops := [.connect 0 [2] 12 []] } else {})
        (runOps twoModules {})) :=
  (emits_exactly_once sampleTopic {}
    (fun k => if k = 0 then { ops := [.connect 0 [2] 12 []] } else {})
    (runOps twoModules {}) ⟨twoModules, rfl⟩ (by decide +kernel)).1

/-- Three modules listen, the first one once. -/
def threeModules : List Op :=
  [.connectOnce 0 [1] 10 [], .connect 1 [1] 11 [], .connect 2 [1] 12 []]

/-- The removal of the first registration moves the second module into the
cell the loop has passed; the third one is called twice. -/
theorem once_skips_the_next :
    Reachable (runOps threeModules {}) ∧
      (emitNoRet sampleTopic {} (fun _ => {}) (runOps threeModules {})).map
        (fun s => s.calls.map fun call => call.turn.id) = some [0, 2, 2] ∧
      ¬ Delivers sampleTopic (runOps threeModules {})
        (emitNoRet sampleTopic {} (fun _ => {}) (runOps threeModules {})) := by
  refine ⟨⟨threeModules, rfl⟩, by decide +kernel, ?_⟩
  rintro ⟨s, hemit, honce⟩
  have hnot : (emitNoRet sampleTopic {} (fun _ => {}) (runOps threeModules {})).map
      (fun s => decide (ExactlyOnce ((runOps threeModules {}).view sampleTopic).snapshot
        (s.calls.map Call.turn) (s.registry.view sampleTopic).snapshot)) = some false := by
    decide +kernel
  rw [hemit, Option.map_some, decide_eq_true honce] at hnot
  cases hnot

end LoginServer.Core
