import Mathlib.Data.List.Basic
import Mathlib.Data.Option.Basic

/-!
# Runs of a partial state machine

A machine is a function `step : ι → σ → Option σ`: an input that cannot
happen in a state gives `none`.  A run feeds it a list of inputs.  The rules
below are the ones every safety proof about such a machine ends with: what
one step preserves, a run preserves.

## Main results

* `run_preserves` — the invariant rule.
* `run_preserves_of` — the invariant rule under a condition that is tested
  before every step.
* `obeys_of_invariant` — what the invariant gives for every step.
* `run_iff_obeys` — what a step keeps exactly under a condition, a run keeps
  exactly if all its steps meet it.
* `throughout_iff_obeys` — the same of every state on the way, for what may
  come back later.
* `keeps_iff_obeys` — the steps after each of which a part of the state is as it
  was.
-/

namespace LoginServer.Verified.PartialRun

variable {ι σ ρ : Type}

/-- The state after a list of inputs, if all of them could happen. -/
def run (step : ι → σ → Option σ) : List ι → σ → Option σ
  | [], s => some s
  | input :: inputs, s => (step input s).bind (run step inputs)

variable {step : ι → σ → Option σ}

/-- A guard that lets the step go on. -/
theorem of_guard_eq_some {p : Prop} [Decidable p] {u : Unit}
    (h : (guard p : Option Unit) = some u) : p := by
  by_contra hp
  rw [guard, if_neg hp] at h
  cases h

/-- Peeling the first input off a run that succeeds. -/
theorem run_cons_eq_some {input : ι} {inputs : List ι} {s t : σ}
    (h : run step (input :: inputs) s = some t) :
    ∃ u, step input s = some u ∧ run step inputs u = some t :=
  Option.bind_eq_some_iff.mp h

/-- Two runs, one after the other. -/
theorem run_append (inputs inputs' : List ι) (s : σ) :
    run step (inputs ++ inputs') s = (run step inputs s).bind (run step inputs') := by
  induction inputs generalizing s with
  | nil => rfl
  | cons input inputs ih =>
      show (step input s).bind _ = ((step input s).bind _).bind _
      rw [Option.bind_assoc]
      exact Option.bind_congr fun t _ => ih t

/-- What every step preserves, every run preserves. -/
theorem run_preserves {Inv : σ → Prop}
    (hstep : ∀ input s t, Inv s → step input s = some t → Inv t) :
    ∀ (inputs : List ι) (s t : σ), Inv s → run step inputs s = some t → Inv t := by
  intro inputs
  induction inputs with
  | nil =>
      intro s t hs h
      cases h
      exact hs
  | cons input inputs ih =>
      intro s t hs h
      obtain ⟨u, hu, ht⟩ := run_cons_eq_some h
      exact ih u t (hstep input s u hs hu) ht

/-- Every step of the run is taken in a state that allows it under `P`. -/
def Obeys (step : ι → σ → Option σ) (P : ι → σ → Prop) : List ι → σ → Prop
  | [], _ => True
  | input :: inputs, s =>
      P input s ∧ ∀ t, step input s = some t → Obeys step P inputs t

instance decidableObeys (step : ι → σ → Option σ) (P : ι → σ → Prop)
    [∀ input s, Decidable (P input s)] :
    ∀ (inputs : List ι) (s : σ), Decidable (Obeys step P inputs s)
  | [], _ => .isTrue trivial
  | input :: inputs, s =>
      have : ∀ t, Decidable (Obeys step P inputs t) := decidableObeys step P inputs
      inferInstanceAs (Decidable (P input s ∧ ∀ t ∈ step input s, Obeys step P inputs t))

/-- What every allowed step preserves, every run of allowed steps preserves. -/
theorem run_preserves_of {Inv : σ → Prop} {P : ι → σ → Prop}
    (hstep : ∀ input s t, Inv s → P input s → step input s = some t → Inv t) :
    ∀ (inputs : List ι) (s t : σ), Inv s → Obeys step P inputs s →
      run step inputs s = some t → Inv t := by
  intro inputs
  induction inputs with
  | nil =>
      intro s t hs _ h
      cases h
      exact hs
  | cons input inputs ih =>
      intro s t hs hP h
      obtain ⟨u, hu, ht⟩ := run_cons_eq_some h
      exact ih u t (hstep input s u hs hP.1 hu) (hP.2 u hu) ht

theorem obeys_of_forall {P : ι → σ → Prop} (h : ∀ input s, P input s) :
    ∀ (inputs : List ι) (s : σ), Obeys step P inputs s := by
  intro inputs
  induction inputs with
  | nil => exact fun _ => trivial
  | cons input inputs ih => exact fun s => ⟨h input s, fun t _ => ih t⟩

/-- A condition on the inputs alone. -/
theorem obeys_iff_forall_mem {P : ι → Prop} : ∀ {inputs : List ι} {s t : σ},
    run step inputs s = some t →
      (Obeys step (fun input _ => P input) inputs s ↔ ∀ input ∈ inputs, P input) := by
  intro inputs
  induction inputs with
  | nil =>
      intro s t _
      exact iff_of_true trivial (List.forall_mem_nil P)
  | cons input inputs ih =>
      intro s t hrun
      obtain ⟨u, hu, ht⟩ := run_cons_eq_some hrun
      have hrest : (∀ v, step input s = some v →
          Obeys step (fun input _ => P input) inputs v) ↔ ∀ input ∈ inputs, P input := by
        constructor
        · exact fun hall => (ih ht).mp (hall u hu)
        · intro hall v hv
          cases hu.symm.trans hv
          exact (ih ht).mpr hall
      rw [Obeys, hrest, List.forall_mem_cons]

theorem Obeys.and {P Q : ι → σ → Prop} : ∀ {inputs : List ι} {s : σ},
    Obeys step P inputs s → Obeys step Q inputs s →
      Obeys step (fun input s => P input s ∧ Q input s) inputs s := by
  intro inputs
  induction inputs with
  | nil => exact fun _ _ => trivial
  | cons input inputs ih =>
      exact fun hP hQ => ⟨⟨hP.1, hQ.1⟩, fun t ht => ih (hP.2 t ht) (hQ.2 t ht)⟩

/-- What holds of the rest of a run. -/
theorem Obeys.append_right {P : ι → σ → Prop} : ∀ {inputs inputs' : List ι} {s t : σ},
    Obeys step P (inputs ++ inputs') s → run step inputs s = some t →
      Obeys step P inputs' t := by
  intro inputs
  induction inputs with
  | nil =>
      intro inputs' s t h hrun
      cases hrun
      exact h
  | cons input inputs ih =>
      intro inputs' s t h hrun
      obtain ⟨u, hu, ht⟩ := run_cons_eq_some hrun
      exact ih (h.2 u hu) ht

/-- What the invariant gives for every allowed step. -/
theorem obeys_of_invariant {Inv : σ → Prop} {P Q : ι → σ → Prop}
    (hstep : ∀ input s t, Inv s → P input s → step input s = some t → Inv t)
    (hQ : ∀ input s, Inv s → P input s → Q input s) :
    ∀ {inputs : List ι} {s : σ}, Inv s → Obeys step P inputs s → Obeys step Q inputs s := by
  intro inputs
  induction inputs with
  | nil => exact fun _ _ => trivial
  | cons input inputs ih =>
      intro s hs hP
      exact ⟨hQ input s hs hP.1, fun t ht => ih (hstep input s t hs hP.1 ht) (hP.2 t ht)⟩

/-- Where every step keeps `Q` if and only if it meets `P`, and nothing brings
`Q` back, a run ends in `Q` if and only if all its steps meet `P`. -/
theorem run_iff_obeys {Inv Q : σ → Prop} {P R : ι → σ → Prop}
    (hstep : ∀ input s t, Inv s → R input s → step input s = some t →
      Inv t ∧ (Q t ↔ Q s ∧ P input s)) :
    ∀ (inputs : List ι) (s t : σ), Inv s → Obeys step R inputs s →
      run step inputs s = some t → (Q t ↔ Q s ∧ Obeys step P inputs s) := by
  intro inputs
  induction inputs with
  | nil =>
      intro s t _ _ h
      cases h
      exact (and_iff_left trivial).symm
  | cons input inputs ih =>
      intro s t hs hR h
      obtain ⟨u, hu, ht⟩ := run_cons_eq_some h
      obtain ⟨hInv, hQ⟩ := hstep input s u hs hR.1 hu
      have hrest : (∀ v, step input s = some v → Obeys step P inputs v) ↔
          Obeys step P inputs u := by
        constructor
        · exact fun hall => hall u hu
        · intro hobeys v hv
          rw [hu] at hv
          rwa [← Option.some.inj hv]
      rw [ih u t hInv (hR.2 u hu) ht, hQ, Obeys, hrest, and_assoc]

/-- Every state that the run passes through has the property. -/
def Throughout (step : ι → σ → Option σ) (Q : σ → Prop) (inputs : List ι) (s : σ) :
    Prop :=
  ∀ before t, before <+: inputs → run step before s = some t → Q t

theorem throughout_nil {Q : σ → Prop} {s : σ} : Throughout step Q [] s ↔ Q s := by
  constructor
  · intro h
    exact h [] s (List.prefix_refl []) rfl
  · intro h before t hbefore hrun
    rw [List.prefix_nil.mp hbefore] at hrun
    cases hrun
    exact h

theorem throughout_cons {Q : σ → Prop} {input : ι} {inputs : List ι} {s u : σ}
    (hu : step input s = some u) :
    Throughout step Q (input :: inputs) s ↔ Q s ∧ Throughout step Q inputs u := by
  constructor
  · intro h
    constructor
    · exact h [] s (List.nil_prefix) rfl
    · intro before t hbefore hrun
      apply h (input :: before) t ((List.prefix_cons_inj input).mpr hbefore)
      rw [run, hu]
      exact hrun
  · intro h before t hbefore hrun
    cases before with
    | nil =>
        cases hrun
        exact h.1
    | cons first before =>
        obtain ⟨rfl, htail⟩ := List.cons_prefix_cons.mp hbefore
        rw [run, hu] at hrun
        exact h.2 before t htail hrun

/-- Where a step from a state with `Q` ends in one if and only if it meets `P`,
a run stays in `Q` if and only if all its steps meet `P`. -/
theorem throughout_iff_obeys {Inv Q : σ → Prop} {P : ι → σ → Prop}
    (hstep : ∀ input s t, Inv s → Q s → step input s = some t →
      Inv t ∧ (Q t ↔ P input s)) :
    ∀ (inputs : List ι) (s t : σ), Inv s → Q s → run step inputs s = some t →
      (Throughout step Q inputs s ↔ Obeys step P inputs s) := by
  intro inputs
  induction inputs with
  | nil =>
      intro s t _ hQ _
      rw [throughout_nil]
      exact iff_of_true hQ trivial
  | cons input inputs ih =>
      intro s t hs hQ hrun
      obtain ⟨u, hu, ht⟩ := run_cons_eq_some hrun
      obtain ⟨hInv, hiff⟩ := hstep input s u hs hQ hu
      rw [throughout_cons hu, Obeys, and_iff_right hQ]
      constructor
      · intro h
        have hQu : Q u := h [] u List.nil_prefix rfl
        refine ⟨hiff.mp hQu, fun v hv => ?_⟩
        cases hu.symm.trans hv
        exact (ih u t hInv hQu ht).mp h
      · intro h
        exact (ih u t hInv (hiff.mpr h.1) ht).mpr (h.2 u hu)

/-- All of the inputs happen, and after each of them the part of the state is
what it was. -/
def Keeps (step : ι → σ → Option σ) (part : σ → ρ) (inputs : List ι) (s : σ) : Prop :=
  ∀ before, before <+: inputs → ∃ t, run step before s = some t ∧ part t = part s

theorem keeps_cons {part : σ → ρ} {input : ι} {inputs : List ι} {s : σ} :
    Keeps step part (input :: inputs) s ↔
      ∃ u, step input s = some u ∧ part u = part s ∧ Keeps step part inputs u := by
  constructor
  · intro h
    obtain ⟨u, hrun, hpart⟩ := h [input] ((List.prefix_cons_inj input).mpr List.nil_prefix)
    obtain ⟨v, hv, hnil⟩ := run_cons_eq_some hrun
    cases hnil
    refine ⟨u, hv, hpart, fun before hbefore => ?_⟩
    obtain ⟨t, ht, hsame⟩ := h (input :: before) ((List.prefix_cons_inj input).mpr hbefore)
    rw [run, hv] at ht
    exact ⟨t, ht, hsame.trans hpart.symm⟩
  · rintro ⟨u, hu, hpart, hrest⟩ before hbefore
    cases before with
    | nil => exact ⟨s, rfl, rfl⟩
    | cons first before =>
        obtain ⟨rfl, htail⟩ := List.cons_prefix_cons.mp hbefore
        obtain ⟨t, ht, hsame⟩ := hrest before htail
        refine ⟨t, ?_, hsame.trans hpart⟩
        rw [run, hu]
        exact ht

/-- Where a step keeps the part if and only if it meets `P`, so does a run all
of whose steps meet it. -/
theorem keeps_iff_obeys {part : σ → ρ} {P : ι → σ → Prop}
    (hstep : ∀ input s, (∃ t, step input s = some t ∧ part t = part s) ↔ P input s) :
    ∀ (inputs : List ι) (s : σ), Keeps step part inputs s ↔ Obeys step P inputs s := by
  intro inputs
  induction inputs with
  | nil =>
      intro s
      refine iff_of_true (fun before hbefore => ?_) trivial
      rw [List.prefix_nil.mp hbefore]
      exact ⟨s, rfl, rfl⟩
  | cons input inputs ih =>
      intro s
      rw [keeps_cons, Obeys, ← hstep]
      constructor
      · rintro ⟨u, hu, hpart, hrest⟩
        refine ⟨⟨u, hu, hpart⟩, fun t ht => ?_⟩
        cases hu.symm.trans ht
        exact (ih u).mp hrest
      · rintro ⟨⟨u, hu, hpart⟩, hrest⟩
        exact ⟨u, hu, hpart, (ih u).mpr (hrest u hu)⟩

end LoginServer.Verified.PartialRun
