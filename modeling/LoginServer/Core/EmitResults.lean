import LoginServer.Core.EmitDelivery
import LoginServer.Core.EmitFold

/-!
# The results of an emit

`emit` appends the results of its callbacks to one vector.  `pushLuaResult`
reads a callback's results from the top of the Lua stack down, so it has to
turn them round; what it turns round is the whole vector, with all that was
collected before.

The vector of an emit is a fold over those of its callbacks that return.

## Main results

* `emit_results` — the vector after any emit.
* `emit_inOrder_iff` — the emits that collect in order whatever is returned.
-/

namespace LoginServer.Core

open LoginServer.Verified

/-! ## The order of the results -/

/-- What `lua_pcall` leaves of the results of a callback: all of them for
`LUA_MULTRET`, and else as many as were asked for. -/
def asked (nresults : Int) (results : List LuaResult) : List LuaResult :=
  if nresults < 0 then results else adjustResults nresults.toNat results

/-- The callbacks return other values, and do the same. -/
def Behaviour.returning (behaviour : Behaviour) (values : Nat → List LuaResult) : Behaviour :=
  fun k => { behaviour k with results := (behaviour k).results.map fun _ => values k }

/-- The invocations, of the first `n`, that return. -/
def returned (behaviour : Behaviour) (n : Nat) : List Nat :=
  (List.range n).filter fun k => (behaviour k).results.isSome

theorem returned_succ (behaviour : Behaviour) (n : Nat) :
    returned behaviour (n + 1) =
      returned behaviour n ++ if (behaviour n).results.isSome then [n] else [] := by
  rw [returned, List.range_succ, List.filter_append, ← returned]
  congr 1
  by_cases h : (behaviour n).results.isSome
  · simp [h]
  · simp [h]

/-- One callback's results go in. -/
def takeIn (vec results : List LuaResult) : List LuaResult := results ++ vec.reverse

theorem pushLuaResult_eq {nresults : Nat} (h : 0 < nresults) (results vec : List LuaResult) :
    pushLuaResult nresults results vec = takeIn vec (adjustResults nresults results) := by
  rw [pushLuaResult, if_pos h, List.reverse_append, List.reverse_reverse, takeIn]

/-- What `emit` does with the results of one invocation. -/
def collectResults (nresults : Nat) (vecRet : List LuaResult) :
    Option (List LuaResult) → List LuaResult
  | none => vecRet
  | some results => pushLuaResult nresults results vecRet

/-- The vector is a fold over the invocations that return. -/
theorem collected_eq (behaviour : Behaviour) (values : Nat → List LuaResult) {nresults : Nat}
    (h : 0 < nresults) (vecRet : List LuaResult) (n : Nat) :
    collected (behaviour.returning values) (collectResults nresults) vecRet n =
      ((returned behaviour n).map fun k => adjustResults nresults (values k)).foldl
        takeIn vecRet := by
  induction n with
  | zero => rfl
  | succ n ih =>
      rw [collected, ih, returned_succ]
      cases hresults : (behaviour n).results with
      | none =>
          have hnone : (behaviour.returning values n).results = none := by
            simp [Behaviour.returning, hresults]
          rw [hnone]
          simp [collectResults]
      | some results =>
          have hsome : (behaviour.returning values n).results = some (values n) := by
            simp [Behaviour.returning, hresults]
          rw [hsome]
          simp [collectResults, pushLuaResult_eq h]

/-- With no results asked for, or with all of them left on the stack, nothing
is collected. -/
theorem collected_zero (behaviour : Behaviour) (vecRet : List LuaResult) (n : Nat) :
    collected behaviour (collectResults 0) vecRet n = vecRet := by
  induction n with
  | zero => rfl
  | succ n ih =>
      rw [collected, ih]
      cases (behaviour n).results <;> rfl

/-- The vector after an emit whose callbacks return `values`. -/
theorem emit_results (t : Topic) (spare : Spare) (behaviour : Behaviour)
    (values : Nat → List LuaResult) (nresults : Nat) (vecRet : List LuaResult)
    (reg : Registry) :
    emit t spare (behaviour.returning values) nresults vecRet reg =
      (emitNoRet t spare behaviour reg).map
        (Walk.filled (behaviour.returning values) (collectResults nresults) vecRet) := by
  have hcollect : (fun vecRet results =>
      match results with
      | none => vecRet
      | some results => pushLuaResult nresults results vecRet) = collectResults nresults := by
    funext vecRet results
    cases results <;> rfl
  have hops : ∀ k, (behaviour k).ops = (behaviour.returning values k).ops := fun _ => rfl
  rw [← emitWith_eq_map hops, ← hcollect]
  rfl

/-! ### Which emits keep the order -/

theorem adjustResults_replicate (nresults : Nat) (value : LuaResult) :
    adjustResults nresults (List.replicate nresults value) = List.replicate nresults value := by
  simp [adjustResults]

/-- The results that went in last come first. -/
theorem head?_foldl_takeIn (parts : List (List LuaResult)) {last : List LuaResult}
    (h : last ≠ []) (vec : List LuaResult) :
    ((parts ++ [last]).foldl takeIn vec).head? = last.head? := by
  rw [List.foldl_append]
  show (last ++ _).head? = _
  rw [List.head?_append_of_ne_nil _ h]

/-- Whatever the callbacks at `ids` return, the vector has their results in
order. -/
def InOrder (nresults : Nat) (vecRet : List LuaResult) (ids : List Nat) : Prop :=
  ∀ values : Nat → List LuaResult,
    (ids.map fun k => adjustResults nresults (values k)).foldl takeIn vecRet =
      vecRet ++ ids.flatMap fun k => adjustResults nresults (values k)

/-- One callback on an empty vector keeps the order.  Any other emit has a
first element that the last callback can differ from. -/
theorem inOrder_iff {nresults : Nat} (hpos : 0 < nresults) (vecRet : List LuaResult)
    {ids : List Nat} (hnodup : ids.Nodup) :
    InOrder nresults vecRet ids ↔ ids = [] ∨ (ids.length = 1 ∧ vecRet = []) := by
  constructor
  · intro h
    cases hids : ids.reverse with
    | nil => exact Or.inl (List.reverse_eq_nil_iff.mp hids)
    | cons last before =>
        have hsplit : ids = before.reverse ++ [last] := by
          rw [← List.reverse_reverse ids, hids, List.reverse_cons]
        -- the last callback returns `y` and the others `z`
        have hfirst (y z : LuaResult) :
            some y = (vecRet ++ ids.flatMap fun k =>
              List.replicate nresults (if k = last then y else z)).head? := by
          have hvalues := h fun k => List.replicate nresults (if k = last then y else z)
          simp only [adjustResults_replicate] at hvalues
          rw [← hvalues, hsplit, List.map_append, List.map_singleton,
            head?_foldl_takeIn _ (by simp; omega), if_pos rfl, List.head?_replicate,
            if_neg (by omega)]
        cases vecRet with
        | cons x rest =>
            have hother : ∃ y, y ≠ x := by
              by_cases hx : x = .other
              · exact ⟨.boolean true, by rw [hx]; exact fun h => by cases h⟩
              · exact ⟨.other, Ne.symm hx⟩
            obtain ⟨y, hy⟩ := hother
            exact absurd (Option.some.inj (hfirst y y)) hy
        | nil =>
            cases hinit : before.reverse with
            | nil => exact Or.inr ⟨by rw [hsplit, hinit]; rfl, rfl⟩
            | cons first rest =>
                rw [hinit] at hsplit
                have hne : first ≠ last := by
                  rw [hsplit] at hnodup
                  have hnotin := (List.nodup_cons.mp hnodup).1
                  exact fun heq => hnotin (by simp [heq])
                have hhead := hfirst (.boolean true) .other
                rw [hsplit, List.nil_append, List.cons_append, List.flatMap_cons, if_neg hne,
                  List.head?_append_of_ne_nil _ (by simp; omega), List.head?_replicate,
                  if_neg (by omega)] at hhead
                cases hhead
  · rintro (rfl | ⟨hone, rfl⟩)
    · intro values
      simp
    · obtain ⟨k, rfl⟩ := List.length_eq_one_iff.mp hone
      intro values
      simp [takeIn]

/-- Whatever the callbacks that return do return, `emit` appends it in the
order of the calls.  For the vector a negative `nresults` is none at all. -/
def CollectsInOrder (t : Topic) (spare : Spare) (behaviour : Behaviour) (nresults : Int)
    (vecRet : List LuaResult) (reg : Registry) : Prop :=
  ∀ values : Nat → List LuaResult, ∃ s,
    emit t spare (behaviour.returning values) nresults.toNat vecRet reg = some s ∧
      s.results = vecRet ++ (returned behaviour s.calls.length).flatMap fun k =>
        asked nresults (values k)

/-- No results are asked for, or none are given, or one callback gives them on
an empty vector. -/
def OneGiver (behaviour : Behaviour) (nresults : Int) (vecRet : List LuaResult)
    (calls : List Call) : Prop :=
  nresults = 0 ∨ returned behaviour calls.length = [] ∨
    (0 < nresults ∧ (returned behaviour calls.length).length = 1 ∧ vecRet = [])

theorem nodup_returned (behaviour : Behaviour) (n : Nat) : (returned behaviour n).Nodup :=
  List.Nodup.filter _ List.nodup_range

/-- The vector of a walk that went through `calls`. -/
theorem inOrder_of_calls (behaviour : Behaviour) (nresults : Int) (vecRet : List LuaResult)
    (calls : List Call) :
    (∀ values : Nat → List LuaResult,
        collected (behaviour.returning values) (collectResults nresults.toNat) vecRet
            calls.length =
          vecRet ++ (returned behaviour calls.length).flatMap fun k =>
            asked nresults (values k)) ↔
      OneGiver behaviour nresults vecRet calls := by
  unfold OneGiver asked
  by_cases hpos : 0 < nresults
  · have hnat : 0 < nresults.toNat := by omega
    simp only [collected_eq behaviour _ hnat, if_neg (Int.not_lt.mpr (Int.le_of_lt hpos))]
    have hiff := inOrder_iff hnat vecRet (nodup_returned behaviour calls.length)
    unfold InOrder at hiff
    rw [hiff, or_iff_right (Int.ne_of_gt hpos), and_iff_right hpos]
  · have hnat : nresults.toNat = 0 := by omega
    simp only [hnat, collected_zero]
    by_cases hzero : nresults = 0
    · subst hzero
      simp [adjustResults]
    · have hneg : nresults < 0 := by omega
      simp only [if_pos hneg]
      constructor
      · intro h
        have hall := h fun _ => [.other]
        cases hids : returned behaviour calls.length with
        | nil => exact Or.inr (Or.inl rfl)
        | cons k ids =>
            rw [hids] at hall
            simp at hall
      · rintro (h | h | h)
        · exact absurd h hzero
        · intro values
          rw [h]
          simp
        · exact absurd h.1 hpos

/-- For every event, registry, number of results and vector, and whatever the
callbacks do: the results are in order for all values exactly if the loops read
no freed vector and there is at most one giver. -/
theorem emit_inOrder_iff (t : Topic) (spare : Spare) (behaviour : Behaviour) (nresults : Int)
    (vecRet : List LuaResult) (reg : Registry) :
    CollectsInOrder t spare behaviour nresults vecRet reg ↔
      ∃ s, emitNoRet t spare behaviour reg = some s ∧
        OneGiver behaviour nresults vecRet s.calls := by
  unfold CollectsInOrder
  simp only [emit_results]
  cases hwalk : emitNoRet t spare behaviour reg with
  | none =>
      refine iff_of_false (fun h => ?_) (fun h => ?_)
      · obtain ⟨s, hs, -⟩ := h fun _ => []
        cases hs
      · obtain ⟨s, hs, -⟩ := h
        cases hs
  | some s =>
      have hvector : (∀ values : Nat → List LuaResult, ∃ u,
          (some s).map (Walk.filled (behaviour.returning values)
              (collectResults nresults.toNat) vecRet) = some u ∧
            u.results = vecRet ++ (returned behaviour u.calls.length).flatMap fun k =>
              asked nresults (values k)) ↔ OneGiver behaviour nresults vecRet s.calls := by
        rw [← inOrder_of_calls]
        constructor
        · intro h values
          obtain ⟨u, hu, hresults⟩ := h values
          cases hu
          exact hresults
        · intro h values
          exact ⟨_, rfl, h values⟩
      rw [hvector]
      constructor
      · exact fun h => ⟨s, rfl, h⟩
      · rintro ⟨u, hu, h⟩
        cases hu
        exact h

/-- Two modules listen, and each callback returns its number. -/
theorem two_results_reversed :
    (emit sampleTopic {} (Behaviour.returning (fun _ => {}) fun k => [.number k]) 1 []
        (runOps twoModules {})).map (fun s => (s.results, s.calls.length)) =
          some ([.number 1, .number 0], 2) ∧
      ¬ CollectsInOrder sampleTopic {} (fun _ => {}) 1 [] (runOps twoModules {}) := by
  have hrun : (emit sampleTopic {} (Behaviour.returning (fun _ => {}) fun k => [.number k]) 1 []
      (runOps twoModules {})).map (fun s => (s.results, s.calls.length)) =
        some ([.number 1, .number 0], 2) := by decide +kernel
  refine ⟨hrun, fun h => ?_⟩
  obtain ⟨s, hs, hresults⟩ := h fun k => [.number k]
  have hemit : emit sampleTopic {} (Behaviour.returning (fun _ => {}) fun k => [.number k]) 1 []
      (runOps twoModules {}) = some s := hs
  rw [hemit] at hrun
  have hpair := Option.some.inj hrun
  have hvector : s.results = [.number 1, .number 0] := congrArg Prod.fst hpair
  have hcalls : s.calls.length = 2 := congrArg Prod.snd hpair
  rw [hvector, hcalls] at hresults
  exact absurd hresults (by decide)

end LoginServer.Core
