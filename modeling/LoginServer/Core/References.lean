import LoginServer.Core.RegistryLedger

/-!
# Which references are still taken

`luaL_ref` hands out a number that is not in use and `luaL_unref` takes it
back.  `connect` is given such a number and stores it; what is stored is
released when the connection goes.  The release stands in one branch of each
`disconnect`: with an identifier always, and for plain callbacks only when the
last one of the event goes, where the number released is the one that was
asked for.  A `connect` that is refused keeps nothing and releases nothing.

## Main results

* `Accounts.post_remove`, `Accounts.post_add` — nothing stored is released,
  nothing is released twice, in any history.
* `settled_remove_iff` — when an entry leaves a reference behind.
* `references_accounted_iff` — the histories that leave none behind.
-/

namespace LoginServer.Core

open LoginServer.Verified

namespace Ledger

/-- Some module holds the callback. -/
def Holds (l : Ledger) (callback : Int) : Prop :=
  ∃ m t, ∃ r ∈ l.held m t, r.callback = callback

/-- The reference was taken and not released. -/
def Outstanding (l : Ledger) (taken : List Int) (callback : Int) : Prop :=
  l.released.count callback < taken.count callback

/-- The references that are taken and not released are those that are stored,
and none was released more often than taken. -/
structure Settled (l : Ledger) (taken : List Int) : Prop where
  paid : ∀ callback, l.released.count callback ≤ taken.count callback
  exact : ∀ callback, l.Outstanding taken callback ↔ l.Holds callback

/-- What holds of every history, leaks or not. -/
structure Accounts (l : Ledger) (taken : List Int) : Prop where
  paid : ∀ callback, l.released.count callback ≤ taken.count callback
  single : ∀ callback, taken.count callback ≤ l.released.count callback + 1
  stored : ∀ callback, l.Holds callback → l.Outstanding taken callback
  unique : ∀ m t r m' t' r', r ∈ l.held m t → r' ∈ l.held m' t' →
    r.callback = r'.callback → m = m' ∧ t = t' ∧ r = r'
  older : ∀ m t, ∀ r ∈ l.held m t, r.serial < l.serial
  nodup : ∀ m t, (l.held m t).Nodup

section
variable {l : Ledger} {taken : List Int} {m : ModuleId} {t : Topic} {callback : Int}

theorem held_set (rs : List Registration) : (l.set m t rs).held m t = rs :=
  if_pos ⟨rfl, rfl⟩

theorem held_set_ne {rs : List Registration} {m' : ModuleId} {t' : Topic}
    (h : ¬ (m' = m ∧ t' = t)) : (l.set m t rs).held m' t' = l.held m' t' :=
  if_neg h

theorem mem_left {r : Registration} :
    r ∈ l.left m t callback ↔ r ∈ l.held m t ∧ r.callback ≠ callback := by
  simp [left]

/-- What is held after a removal was held before, with another callback. -/
theorem mem_held_remove {r : Registration} {m' : ModuleId} {t' : Topic} :
    r ∈ ((Entry.remove m t callback).post l).held m' t' ↔
      r ∈ l.held m' t' ∧ ¬ (m' = m ∧ t' = t ∧ r.callback = callback) := by
  show r ∈ (l.set m t (l.left m t callback)).held m' t' ↔ _
  by_cases hhere : m' = m ∧ t' = t
  · obtain ⟨rfl, rfl⟩ := hhere
    rw [held_set, mem_left]
    simp
  · rw [held_set_ne hhere]
    exact (and_iff_left fun hthree => hhere ⟨hthree.1, hthree.2.1⟩).symm

theorem mem_held_remove_of {r : Registration} {m' : ModuleId} {t' : Topic}
    (h : r ∈ l.held m' t') (hne : r.callback ≠ callback) :
    r ∈ ((Entry.remove m t callback).post l).held m' t' :=
  mem_held_remove.mpr ⟨h, fun hthree => hne hthree.2.2⟩

/-- A removal empties a topic when every callback there is the one removed. -/
theorem empties_iff : l.Empties m t callback ↔
    l.held m t ≠ [] ∧ ∀ r ∈ l.held m t, r.callback = callback := by
  simp [Empties, left, List.filter_eq_nil_iff]

theorem holds_of_empties (h : l.Empties m t callback) : l.Holds callback := by
  obtain ⟨hne, hall⟩ := empties_iff.mp h
  obtain ⟨r, hr⟩ := List.exists_mem_of_ne_nil _ hne
  exact ⟨m, t, r, hr, hall r hr⟩

/-- A removal that empties its topic releases the callback. -/
theorem released_remove_of_empties (h : l.Empties m t callback) :
    ((Entry.remove m t callback).post l).released = callback :: l.released :=
  if_pos h

theorem released_remove_of_not (h : ¬ l.Empties m t callback) :
    ((Entry.remove m t callback).post l).released = l.released :=
  if_neg h

end

section
variable {l : Ledger} {taken : List Int} (h : l.Accounts taken) (m : ModuleId) (t : Topic)
  (callback : Int)
include h

/-- The callback a removal releases is held nowhere else. -/
theorem Accounts.not_holds_remove (hempties : l.Empties m t callback) :
    ¬ ((Entry.remove m t callback).post l).Holds callback := by
  rintro ⟨m', t', r', hr', hcallback⟩
  obtain ⟨hheld, hnot⟩ := mem_held_remove.mp hr'
  obtain ⟨hne, hall⟩ := empties_iff.mp hempties
  obtain ⟨r, hr⟩ := List.exists_mem_of_ne_nil _ hne
  obtain ⟨hm, ht, -⟩ := h.unique _ _ _ _ _ _ hheld hr (hcallback.trans (hall r hr).symm)
  exact hnot ⟨hm, ht, hcallback⟩

theorem Accounts.post_remove : ((Entry.remove m t callback).post l).Accounts taken := by
  have hcount : ∀ c, ((Entry.remove m t callback).post l).released.count c =
      l.released.count c + if l.Empties m t callback ∧ callback = c then 1 else 0 := by
    intro c
    by_cases hempties : l.Empties m t callback
    · rw [released_remove_of_empties hempties, List.count_cons]
      simp [hempties]
    · rw [released_remove_of_not hempties]
      simp [hempties]
  have hout : l.Empties m t callback → l.Outstanding taken callback :=
    fun hempties => h.stored callback (holds_of_empties hempties)
  constructor
  · intro c
    rw [hcount]
    split
    · rename_i hboth
      have hlt := hout hboth.1
      rw [hboth.2] at hlt
      exact hlt
    · exact h.paid c
  · intro c
    have hsingle := h.single c
    rw [hcount]
    omega
  · intro c hholds
    have hlt : l.Outstanding taken c := by
      obtain ⟨m', t', r, hr, hc⟩ := hholds
      exact h.stored c ⟨m', t', r, (mem_held_remove.mp hr).1, hc⟩
    unfold Outstanding
    rw [hcount, if_neg]
    · exact hlt
    · rintro ⟨hempties, rfl⟩
      exact h.not_holds_remove m t callback hempties hholds
  · intro m1 t1 r1 m2 t2 r2 hr1 hr2
    exact h.unique m1 t1 r1 m2 t2 r2 (mem_held_remove.mp hr1).1
      (mem_held_remove.mp hr2).1
  · intro m' t' r hr
    exact h.older m' t' r (mem_held_remove.mp hr).1
  · intro m' t'
    show ((l.set m t (l.left m t callback)).held m' t').Nodup
    by_cases hhere : m' = m ∧ t' = t
    · rw [hhere.1, hhere.2, held_set]
      exact (h.nodup m t).filter _
    · rw [held_set_ne hhere]
      exact h.nodup m' t'

end

/-- A removal takes the callback out of a list that holds another one. -/
def Strands (l : Ledger) (m : ModuleId) (t : Topic) (callback : Int) : Prop :=
  (∃ r ∈ l.held m t, r.callback = callback) ∧ ∃ r ∈ l.held m t, r.callback ≠ callback

instance (l : Ledger) (m : ModuleId) (t : Topic) (callback : Int) :
    Decidable (l.Strands m t callback) :=
  inferInstanceAs (Decidable (_ ∧ _))

section
variable {l : Ledger} {taken : List Int} {m : ModuleId} {t : Topic} {callback : Int}

theorem strands_or_empties (h : ∃ r ∈ l.held m t, r.callback = callback) :
    l.Strands m t callback ∨ l.Empties m t callback := by
  by_cases hother : ∃ r ∈ l.held m t, r.callback ≠ callback
  · exact Or.inl ⟨h, hother⟩
  · right
    rw [empties_iff]
    constructor
    · obtain ⟨r, hr, -⟩ := h
      exact List.ne_nil_of_mem hr
    · intro r hr
      by_contra hne
      exact hother ⟨r, hr, hne⟩

/-- A list with one callback holds no other. -/
theorem not_strands_of_length_le (h : (l.held m t).length ≤ 1) : ¬ l.Strands m t callback := by
  rintro ⟨⟨r, hr, hcallback⟩, r', hr', hother⟩
  cases hheld : l.held m t with
  | nil =>
      rw [hheld] at hr
      cases hr
  | cons first rest =>
      rw [hheld] at hr hr' h
      have hrest : rest = [] :=
        List.eq_nil_of_length_eq_zero (Nat.le_zero.mp (Nat.le_of_succ_le_succ h))
      rw [hrest, List.mem_singleton] at hr hr'
      exact hother (hr'.trans hr.symm ▸ hcallback)

theorem not_empties_of_strands (h : l.Strands m t callback) : ¬ l.Empties m t callback := by
  intro hempties
  obtain ⟨r, hr, hne⟩ := h.2
  exact hne ((empties_iff.mp hempties).2 r hr)

theorem holds_remove_iff {c : Int} (hne : c ≠ callback) :
    ((Entry.remove m t callback).post l).Holds c ↔ l.Holds c := by
  constructor
  · rintro ⟨m', t', r, hr, hc⟩
    exact ⟨m', t', r, (mem_held_remove.mp hr).1, hc⟩
  · rintro ⟨m', t', r, hr, hc⟩
    exact ⟨m', t', r, mem_held_remove_of hr (hc ▸ hne), hc⟩

theorem outstanding_remove_iff {c : Int} (hne : c ≠ callback) :
    ((Entry.remove m t callback).post l).Outstanding taken c ↔ l.Outstanding taken c := by
  unfold Outstanding
  by_cases hempties : l.Empties m t callback
  · rw [released_remove_of_empties hempties, List.count_cons_of_ne (Ne.symm hne)]
  · rw [released_remove_of_not hempties]

/-- A stranded callback is out of the list, and its reference is still taken. -/
theorem Accounts.not_settled_of_strands (h : l.Accounts taken)
    (hstrands : l.Strands m t callback) :
    ¬ ((Entry.remove m t callback).post l).Settled taken := by
  intro hsettled
  obtain ⟨r, hr, hcallback⟩ := hstrands.1
  have hout : ((Entry.remove m t callback).post l).Outstanding taken callback := by
    unfold Outstanding
    rw [released_remove_of_not (not_empties_of_strands hstrands)]
    exact h.stored callback ⟨m, t, r, hr, hcallback⟩
  obtain ⟨m', t', r', hr', hcallback'⟩ := (hsettled.exact callback).mp hout
  obtain ⟨hheld, hnot⟩ := mem_held_remove.mp hr'
  obtain ⟨hm, ht, -⟩ := h.unique _ _ _ _ _ _ hheld hr (hcallback'.trans hcallback.symm)
  exact hnot ⟨hm, ht, hcallback'⟩

/-- The last callback of a list goes with its reference. -/
theorem Accounts.settled_of_empties_iff (h : l.Accounts taken) (hholds : l.Holds callback)
    (hempties : l.Empties m t callback) :
    ((Entry.remove m t callback).post l).Settled taken ↔ l.Settled taken := by
  have hnot := h.not_holds_remove m t callback hempties
  have hsingle := h.single callback
  have hpaid : ¬ ((Entry.remove m t callback).post l).Outstanding taken callback := by
    unfold Outstanding
    rw [released_remove_of_empties hempties, List.count_cons_self]
    omega
  constructor
  · intro hsettled
    refine ⟨h.paid, fun c => ?_⟩
    by_cases hc : c = callback
    · rw [hc]
      exact iff_of_true (h.stored callback hholds) hholds
    · rw [← outstanding_remove_iff hc, ← holds_remove_iff hc]
      exact hsettled.exact c
  · intro hsettled
    refine ⟨(h.post_remove m t callback).paid, fun c => ?_⟩
    by_cases hc : c = callback
    · rw [hc]
      exact iff_of_false hpaid hnot
    · rw [outstanding_remove_iff hc, holds_remove_iff hc]
      exact hsettled.exact c

/-- A callback that a list does not hold is not taken out of it. -/
theorem remove_eq_self (h : ¬ ∃ r ∈ l.held m t, r.callback = callback) :
    (Entry.remove m t callback).post l = l := by
  have hleft : l.left m t callback = l.held m t := by
    rw [left, List.filter_eq_self]
    intro r hr
    rw [decide_eq_true_eq]
    exact fun hcallback => h ⟨r, hr, hcallback⟩
  have hempties : ¬ l.Empties m t callback := by
    rintro ⟨hne, hnil⟩
    exact hne (hleft.symm.trans hnil)
  apply Registry.ledger_ext
  · intro m' t'
    show (l.set m t (l.left m t callback)).held m' t' = l.held m' t'
    rw [hleft]
    by_cases hmt : m' = m ∧ t' = t
    · rw [hmt.1, hmt.2, held_set]
    · exact held_set_ne hmt
  · exact released_remove_of_not hempties
  · rfl

/-- A removal leaves the account settled unless it strands its callback. -/
theorem settled_remove_iff (h : l.Accounts taken) :
    ((Entry.remove m t callback).post l).Settled taken ↔
      l.Settled taken ∧ ¬ l.Strands m t callback := by
  by_cases hhere : ∃ r ∈ l.held m t, r.callback = callback
  · rcases strands_or_empties hhere with hstrands | hempties
    · exact iff_of_false (h.not_settled_of_strands hstrands) (fun hboth => hboth.2 hstrands)
    · obtain ⟨r, hr, hcallback⟩ := hhere
      rw [h.settled_of_empties_iff ⟨m, t, r, hr, hcallback⟩ hempties]
      have hstrands : ¬ l.Strands m t callback :=
        fun hstrands => not_empties_of_strands hstrands hempties
      exact (and_iff_left hstrands).symm
  · rw [remove_eq_self hhere]
    exact (and_iff_left fun hstrands => hhere hstrands.1).symm

/-- The first of two callbacks is held beside the second. -/
theorem Accounts.strands_of_two (h : l.Accounts taken) {r r' : Registration}
    {rest : List Registration} (hheld : l.held m t = r :: r' :: rest) :
    l.Strands m t r.callback := by
  have hdistinct := h.nodup m t
  unfold Strands
  rw [hheld] at hdistinct ⊢
  refine ⟨⟨r, List.mem_cons_self, rfl⟩, r', by simp, ?_⟩
  intro hcallback
  obtain ⟨-, -, heq⟩ := h.unique m t r' m t r (by simp [hheld]) (by simp [hheld]) hcallback
  rw [heq] at hdistinct
  exact (List.nodup_cons.mp hdistinct).1 List.mem_cons_self

/-- A reference that `luaL_ref` has just handed out. -/
theorem Accounts.take (h : l.Accounts taken)
    (hfresh : taken.count callback ≤ l.released.count callback) :
    l.Accounts (callback :: taken) ∧ l.Outstanding (callback :: taken) callback ∧
      ¬ l.Holds callback := by
  have hnot : ¬ l.Holds callback := by
    intro hholds
    have hlt := h.stored callback hholds
    unfold Outstanding at hlt
    omega
  have hle : ∀ c, taken.count c ≤ (callback :: taken).count c :=
    fun c => List.count_le_count_cons
  refine ⟨?_, ?_, hnot⟩
  · constructor
    · exact fun c => Nat.le_trans (h.paid c) (hle c)
    · intro c
      by_cases hc : c = callback
      · rw [hc, List.count_cons_self]
        omega
      · rw [List.count_cons_of_ne (Ne.symm hc)]
        exact h.single c
    · exact fun c hholds => Nat.lt_of_lt_of_le (h.stored c hholds) (hle c)
    · exact h.unique
    · exact h.older
    · exact h.nodup
  · unfold Outstanding
    rw [List.count_cons_self]
    have hpaid := h.paid callback
    omega

/-- A refused reference is taken and stored nowhere. -/
theorem not_settled_take (hout : l.Outstanding (callback :: taken) callback)
    (hnot : ¬ l.Holds callback) : ¬ l.Settled (callback :: taken) :=
  fun hsettled => hnot ((hsettled.exact callback).mp hout)

theorem mem_held_add {r : Registration} {m' : ModuleId} {t' : Topic} :
    r ∈ ((Entry.add m t callback).post l).held m' t' ↔
      r ∈ l.held m' t' ∨ (m' = m ∧ t' = t ∧ r = ⟨callback, l.serial⟩) := by
  show r ∈ (l.set m t (l.held m t ++ [⟨callback, l.serial⟩])).held m' t' ↔ _
  by_cases hhere : m' = m ∧ t' = t
  · obtain ⟨rfl, rfl⟩ := hhere
    rw [held_set]
    simp
  · rw [held_set_ne hhere]
    constructor
    · exact Or.inl
    · rintro (hr | ⟨hm, ht, -⟩)
      · exact hr
      · exact absurd ⟨hm, ht⟩ hhere

theorem holds_add_iff {c : Int} :
    ((Entry.add m t callback).post l).Holds c ↔ l.Holds c ∨ c = callback := by
  constructor
  · rintro ⟨m', t', r, hr, hc⟩
    rcases mem_held_add.mp hr with hold | ⟨-, -, rfl⟩
    · exact Or.inl ⟨m', t', r, hold, hc⟩
    · exact Or.inr hc.symm
  · rintro (⟨m', t', r, hr, hc⟩ | rfl)
    · exact ⟨m', t', r, mem_held_add.mpr (Or.inl hr), hc⟩
    · exact ⟨m, t, _, mem_held_add.mpr (Or.inr ⟨rfl, rfl, rfl⟩), rfl⟩

/-- What an entry takes out, it names. -/
theorem mem_post_or {r : Registration} (entry : Entry) (hr : r ∈ l.held m t) :
    r ∈ (entry.post l).held m t ∨ entry = .remove m t r.callback := by
  cases entry with
  | nothing => exact Or.inl hr
  | add m' t' callback' => exact Or.inl (mem_held_add.mpr (Or.inl hr))
  | remove m' t' callback' =>
      by_cases hnamed : m = m' ∧ t = t' ∧ r.callback = callback'
      · obtain ⟨rfl, rfl, rfl⟩ := hnamed
        exact Or.inr rfl
      · exact Or.inl (mem_held_remove.mpr ⟨hr, hnamed⟩)

/-- What an entry puts in has the next number. -/
theorem mem_of_post {r : Registration} {entry : Entry} (hr : r ∈ (entry.post l).held m t) :
    r ∈ l.held m t ∨ entry = .add m t r.callback ∧ r.serial = l.serial := by
  cases entry with
  | nothing => exact Or.inl hr
  | add m' t' callback' =>
      rcases mem_held_add.mp hr with hold | ⟨rfl, rfl, rfl⟩
      · exact Or.inl hold
      · exact Or.inr ⟨rfl, rfl⟩
  | remove m' t' callback' => exact Or.inl (mem_held_remove.mp hr).1

/-- A reference that is taken and not stored yet is stored. -/
theorem Accounts.post_add (h : l.Accounts taken) (hout : l.Outstanding taken callback)
    (hnot : ¬ l.Holds callback) : ((Entry.add m t callback).post l).Accounts taken := by
  constructor
  · exact h.paid
  · exact h.single
  · intro c hholds
    rcases holds_add_iff.mp hholds with hold | rfl
    · exact h.stored c hold
    · exact hout
  · intro m1 t1 r1 m2 t2 r2 hr1 hr2 heq
    rcases mem_held_add.mp hr1 with hold1 | ⟨hm1, ht1, hnew1⟩
    · rcases mem_held_add.mp hr2 with hold2 | ⟨-, -, hnew2⟩
      · exact h.unique m1 t1 r1 m2 t2 r2 hold1 hold2 heq
      · rw [hnew2] at heq
        exact absurd ⟨m1, t1, r1, hold1, heq⟩ hnot
    · rcases mem_held_add.mp hr2 with hold2 | ⟨hm2, ht2, hnew2⟩
      · rw [hnew1] at heq
        exact absurd ⟨m2, t2, r2, hold2, heq.symm⟩ hnot
      · exact ⟨hm1.trans hm2.symm, ht1.trans ht2.symm, hnew1.trans hnew2.symm⟩
  · intro m' t' r hr
    rcases mem_held_add.mp hr with hold | ⟨-, -, rfl⟩
    · exact Nat.lt_succ_of_lt (h.older m' t' r hold)
    · exact Nat.lt_succ_self _
  · intro m' t'
    show ((l.set m t (l.held m t ++ [⟨callback, l.serial⟩])).held m' t').Nodup
    by_cases hhere : m' = m ∧ t' = t
    · rw [hhere.1, hhere.2, held_set, List.nodup_append]
      refine ⟨h.nodup m t, List.nodup_singleton _, ?_⟩
      intro r hr r' hr' heq
      rw [List.mem_singleton.mp hr'] at heq
      exact hnot ⟨m, t, r, hr, by rw [heq]⟩
    · rw [held_set_ne hhere]
      exact h.nodup m' t'

/-- A reference that is stored at once leaves the account as it was. -/
theorem settled_add_iff (h : l.Accounts taken)
    (hfresh : taken.count callback ≤ l.released.count callback) :
    ((Entry.add m t callback).post l).Settled (callback :: taken) ↔ l.Settled taken := by
  obtain ⟨htake, hout, hnot⟩ := h.take hfresh
  have hexact : ∀ c, c ≠ callback →
      ((((Entry.add m t callback).post l).Outstanding (callback :: taken) c ↔
          ((Entry.add m t callback).post l).Holds c) ↔
        (l.Outstanding taken c ↔ l.Holds c)) := by
    intro c hc
    rw [holds_add_iff, or_iff_left hc]
    unfold Outstanding
    rw [List.count_cons_of_ne (Ne.symm hc)]
    rfl
  constructor
  · intro hsettled
    refine ⟨h.paid, fun c => ?_⟩
    by_cases hc : c = callback
    · apply iff_of_false
      · rw [hc]
        exact Nat.not_lt.mpr hfresh
      · rw [hc]
        exact hnot
    · exact (hexact c hc).mp (hsettled.exact c)
  · intro hsettled
    refine ⟨htake.paid, fun c => ?_⟩
    by_cases hc : c = callback
    · apply iff_of_true
      · rw [hc]
        exact hout
      · exact holds_add_iff.mpr (Or.inr hc)
    · exact (hexact c hc).mpr (hsettled.exact c)

end

end Ledger

/-! ## The operations of an event -/

/-- What a history keeps of a registry and the references it was given. -/
structure Registry.Booked (reg : Registry) (taken : List Int) : Prop where
  tidy : reg.Tidy
  accounts : reg.ledger.Accounts taken

/-- The operation leaves a reference behind. -/
def Op.Strands (reg : Registry) (op : Op) : Prop :=
  match op.entry reg with
  | .remove m t callback => reg.ledger.Strands m t callback
  | _ => False

/-- No operation of a list leaves a reference behind. -/
def Registry.Clean (reg : Registry) : List Op → Prop
  | [] => True
  | op :: ops => ¬ op.Strands reg ∧ Registry.Clean (op.apply reg) ops

/-- The operations that store a reference. -/
def Op.stores : Op → Bool
  | .connect .. => true
  | .connectOnce .. => true
  | _ => false

/-- The operations that never leave a reference behind. -/
def Op.quiet : Op → Bool
  | .disconnectIdentified .. => true
  | .checkConnectOnceIdentified .. => true
  | .openIdentifiedEvent .. => true
  | .openEventMap .. => true
  | .dropIdentifiedEvent .. => true
  | _ => false

theorem Op.stores_of_quiet {op : Op} (h : op.quiet = true) : op.stores = false := by
  cases op with
  | connect => cases h
  | connectOnce => cases h
  | _ => rfl

section
variable {reg : Registry} {taken : List Int}

/-- The entry of a topic with identifier never strands: it holds one callback. -/
theorem Registry.not_strands_takeOut (this : ModuleId) (t : Topic) {m : ModuleId} {t' : Topic}
    {callback : Int} (h : reg.takeOut this t = .remove m t' callback) :
    ¬ reg.ledger.Strands m t' callback := by
  unfold takeOut at h
  split at h
  · cases h
  · rename_i hidentifier
    split at h
    · cases h
    · cases h
      exact Ledger.not_strands_of_length_le (length_registrations_le reg this t
        (fun hempty => hidentifier (List.isEmpty_iff.mp hempty)))

theorem Op.not_strands_of_quiet {op : Op} (h : op.quiet = true) : ¬ op.Strands reg := by
  intro hstrands
  cases op with
  | disconnectIdentified this event identifier clearList =>
      unfold Op.Strands at hstrands
      split at hstrands
      · rename_i hentry
        exact Registry.not_strands_takeOut _ _ hentry hstrands
      · exact hstrands
  | checkConnectOnceIdentified this event identifier =>
      unfold Op.Strands at hstrands
      split at hstrands
      · rename_i hentry
        dsimp only [Op.entry] at hentry
        split at hentry
        · exact Registry.not_strands_takeOut _ _ hentry hstrands
        · cases hentry
      · exact hstrands
  | openIdentifiedEvent => exact hstrands
  | openEventMap => exact hstrands
  | dropIdentifiedEvent => exact hstrands
  | connect => cases h
  | connectOnce => cases h
  | disconnect => cases h
  | checkConnectOnce => cases h

theorem Registry.clean_of_quiet {ops : List Op} (h : ∀ op ∈ ops, op.quiet = true)
    (reg : Registry) : reg.Clean ops := by
  induction ops generalizing reg with
  | nil => trivial
  | cons op ops ih =>
      constructor
      · exact Op.not_strands_of_quiet (h op List.mem_cons_self)
      · exact ih (fun op' hop' => h op' (List.mem_cons_of_mem _ hop')) _

theorem Registry.takeOut_ne_add (this : ModuleId) (t : Topic) (m : ModuleId) (t' : Topic)
    (callback : Int) : reg.takeOut this t ≠ .add m t' callback := by
  unfold takeOut
  split
  · exact Entry.noConfusion
  · split <;> exact Entry.noConfusion

theorem Op.entry_ne_add {op : Op} (hop : op.stores = false) (m : ModuleId) (t : Topic)
    (callback : Int) : op.entry reg ≠ .add m t callback := by
  cases op with
  | connect => cases hop
  | connectOnce => cases hop
  | disconnect => exact Entry.noConfusion
  | disconnectIdentified => exact Registry.takeOut_ne_add _ _ m t callback
  | checkConnectOnce =>
      show (if _ then _ else _ : Entry) ≠ _
      split <;> exact Entry.noConfusion
  | checkConnectOnceIdentified =>
      show (if _ then _ else _ : Entry) ≠ _
      split
      · exact Registry.takeOut_ne_add _ _ m t callback
      · exact Entry.noConfusion
  | openIdentifiedEvent => exact Entry.noConfusion
  | openEventMap => exact Entry.noConfusion
  | dropIdentifiedEvent => exact Entry.noConfusion

/-- An operation that stores nothing. -/
theorem Op.booked {op : Op} (hop : op.stores = false) (h : reg.Booked taken) :
    (op.apply reg).Booked taken ∧
      ((op.apply reg).ledger.Settled taken ↔ reg.ledger.Settled taken ∧ ¬ op.Strands reg) := by
  have htidy := op.tidy h.tidy
  have hledger := op.ledger h.tidy
  unfold Op.Strands
  cases hentry : op.entry reg with
  | nothing =>
      rw [hentry] at hledger
      have hsame : (op.apply reg).ledger = reg.ledger := hledger
      rw [hsame]
      exact ⟨⟨htidy, hsame ▸ h.accounts⟩, (and_iff_left not_false).symm⟩
  | add m t callback => exact absurd hentry (Op.entry_ne_add hop m t callback)
  | remove m t callback =>
      rw [hentry] at hledger
      rw [hledger]
      refine ⟨⟨htidy, ?_⟩, Ledger.settled_remove_iff h.accounts⟩
      rw [hledger]
      exact h.accounts.post_remove m t callback

theorem Registry.booked_applyAll {ops : List Op} (hops : ∀ op ∈ ops, op.stores = false)
    (h : reg.Booked taken) :
    (reg.applyAll ops).Booked taken ∧
      ((reg.applyAll ops).ledger.Settled taken ↔ reg.ledger.Settled taken ∧ reg.Clean ops) := by
  induction ops generalizing reg with
  | nil => exact ⟨h, (and_iff_left trivial).symm⟩
  | cons op ops ih =>
      obtain ⟨hbooked, hsettled⟩ := Op.booked (hops op List.mem_cons_self) h
      obtain ⟨hall, hrest⟩ :=
        ih (fun op' hop' => hops op' (List.mem_cons_of_mem _ hop')) hbooked
      refine ⟨hall, ?_⟩
      rw [Registry.applyAll_cons, hrest, hsettled, Registry.Clean, and_assoc]

/-- `connect` and `connectOnce` store the reference they are given, or leave
it behind. -/
theorem Registry.booked_store {this : ModuleId} {event : EventName} {identifier : Identifier}
    {callback : Int} (op : Op) (h : reg.Booked taken)
    (hfresh : taken.count callback ≤ reg.released.count callback)
    (hentry : op.entry reg =
      if reg.Accepts this ⟨event, identifier⟩ then .add this ⟨event, identifier⟩ callback
      else .nothing) :
    (op.apply reg).Booked (callback :: taken) ∧
      ((op.apply reg).ledger.Settled (callback :: taken) ↔
        reg.ledger.Settled taken ∧ reg.Accepts this ⟨event, identifier⟩) := by
  obtain ⟨htake, hout, hnot⟩ := Ledger.Accounts.take h.accounts hfresh
  have hledger := op.ledger h.tidy
  by_cases haccepts : reg.Accepts this ⟨event, identifier⟩
  · rw [hentry, if_pos haccepts] at hledger
    constructor
    · refine ⟨op.tidy h.tidy, ?_⟩
      rw [hledger]
      exact htake.post_add hout hnot
    · rw [hledger, Ledger.settled_add_iff h.accounts hfresh]
      exact (and_iff_left haccepts).symm
  · rw [hentry, if_neg haccepts] at hledger
    have hsame : (op.apply reg).ledger = reg.ledger := hledger
    constructor
    · exact ⟨op.tidy h.tidy, hsame ▸ htake⟩
    · rw [hsame]
      exact iff_of_false (Ledger.not_settled_take hout hnot) (fun hboth => haccepts hboth.2)

end

/-! ## `freeConnections` -/

section
variable {reg : Registry} {taken : List Int} (this : ModuleId)

theorem Registry.clean_append (ops ops' : List Op) (reg : Registry) :
    reg.Clean (ops ++ ops') ↔ reg.Clean ops ∧ (reg.applyAll ops).Clean ops' := by
  induction ops generalizing reg with
  | nil => exact (and_iff_right trivial).symm
  | cons op ops ih =>
      rw [List.cons_append, Registry.Clean, ih, Registry.Clean, and_assoc]
      rfl

/-- No plain event of the module has two callbacks. -/
def Registry.Slim (reg : Registry) (this : ModuleId) : Prop :=
  ∀ event, (reg.registrations ⟨event, []⟩ this).length ≤ 1

/-- A removal from a list with one callback strands nothing, and leaves no
list longer. -/
theorem Registry.Slim.disconnect (h : reg.Slim this) (htidy : reg.Tidy) (event : EventName)
    (callback : Int) :
    (Op.apply (.disconnect this event callback true) reg).Slim this ∧
      ¬ Op.Strands reg (.disconnect this event callback true) := by
  constructor
  · intro e
    rw [Op.registrations_apply _ htidy]
    show ((reg.ledger.set this ⟨event, []⟩ _).held this ⟨e, []⟩).length ≤ 1
    by_cases he : e = event
    · rw [he, Ledger.held_set]
      exact Nat.le_trans (List.length_filter_le _ _) (h event)
    · rw [Ledger.held_set_ne (fun hboth => he (Topic.mk.inj hboth.2).1)]
      exact h e
  · exact Ledger.not_strands_of_length_le (h event)

theorem Registry.Slim.clean {ops : List Op} (h : reg.Slim this) (htidy : reg.Tidy)
    (hops : ∀ op ∈ ops, ∃ event callback, op = .disconnect this event callback true) :
    reg.Clean ops := by
  induction ops generalizing reg with
  | nil => trivial
  | cons op ops ih =>
      obtain ⟨event, callback, rfl⟩ := hops op List.mem_cons_self
      obtain ⟨hslim, hclean⟩ := h.disconnect this htidy event callback
      exact ⟨hclean,
        ih hslim (Op.tidy _ htidy) fun op' hop' => hops op' (List.mem_cons_of_mem _ hop')⟩

/-- Disconnecting from other events leaves an event alone. -/
theorem Registry.held_of_disconnects (ops : List Op) (e : EventName) (htidy : reg.Tidy)
    (hops : ∀ op ∈ ops, ∃ event callback, event ≠ e ∧
      op = .disconnect this event callback true) :
    (reg.applyAll ops).ledger.held this ⟨e, []⟩ = reg.ledger.held this ⟨e, []⟩ := by
  induction ops generalizing reg with
  | nil => rfl
  | cons op ops ih =>
      obtain ⟨event, callback, hne, rfl⟩ := hops op List.mem_cons_self
      rw [Registry.applyAll_cons,
        ih (Op.tidy _ htidy) fun op' hop' => hops op' (List.mem_cons_of_mem _ hop'),
        Op.ledger _ htidy]
      exact Ledger.held_set_ne fun hboth => hne (Topic.mk.inj hboth.2).1.symm

/-- The plain half of `freeConnections` leaves no reference behind if and only
if no event has two callbacks: the first of two is taken out of a list that
holds the second. -/
theorem clean_plain_iff (h : reg.Booked taken) {events : List EventName}
    (hperm : events.Perm (reg.module this).eventCallbacks.keys) :
    reg.Clean (events.flatMap fun event =>
        (((reg.module this).eventCallbacks.lookup event).getD []).map fun r =>
          .disconnect this event r.callback true) ↔
      reg.Slim this := by
  constructor
  · intro hclean e
    by_contra hlong
    have hheld := Registry.registrations_nil reg this e
    have hmem : e ∈ events := by
      rw [hperm.mem_iff, ← AList.mem_keys, ← AList.lookup_isSome, Option.isSome_iff_ne_none]
      intro hnone
      rw [hheld, hnone] at hlong
      exact hlong (Nat.zero_le _)
    have hnodup : events.Nodup := hperm.nodup_iff.mpr (AList.nodupKeys _)
    obtain ⟨before, after, rfl⟩ := List.append_of_mem hmem
    have hbefore : e ∉ before := by
      intro hin
      rw [List.nodup_append] at hnodup
      exact hnodup.2.2 e hin e List.mem_cons_self rfl
    rw [List.flatMap_append, List.flatMap_cons, Registry.clean_append] at hclean
    have hsame := Registry.held_of_disconnects this (before.flatMap
      fun event => (((reg.module this).eventCallbacks.lookup event).getD []).map
        fun r : Registration => Op.disconnect this event r.callback true) e h.tidy (by
        intro op hop
        obtain ⟨event, hevent, hop⟩ := List.mem_flatMap.mp hop
        obtain ⟨r, -, rfl⟩ := List.mem_map.mp hop
        exact ⟨event, r.callback, fun heq => hbefore (heq ▸ hevent), rfl⟩)
    match hlist : reg.registrations ⟨e, []⟩ this with
    | [] =>
        rw [hlist] at hlong
        exact hlong (Nat.zero_le _)
    | [r] =>
        rw [hlist] at hlong
        exact hlong (Nat.le_refl _)
    | r :: r' :: rest =>
        have hstrands : reg.ledger.Strands this ⟨e, []⟩ r.callback :=
          h.accounts.strands_of_two hlist
        rw [← hheld, hlist] at hclean
        apply hclean.2.1
        show Ledger.Strands _ this ⟨e, []⟩ r.callback
        unfold Ledger.Strands at hstrands ⊢
        rw [hsame]
        exact hstrands
  · intro hslim
    apply hslim.clean this h.tidy
    intro op hop
    obtain ⟨event, -, hop⟩ := List.mem_flatMap.mp hop
    obtain ⟨r, -, rfl⟩ := List.mem_map.mp hop
    exact ⟨event, r.callback, rfl⟩

theorem clean_freeOps_iff (h : reg.Booked taken) {events : List EventName}
    {identified : List (EventName × List Identifier)}
    (hperm : events.Perm (reg.module this).eventCallbacks.keys) :
    reg.Clean (freeOps reg this events identified) ↔ reg.Slim this := by
  unfold freeOps
  rw [Registry.clean_append, clean_plain_iff this h hperm]
  apply and_iff_left
  apply Registry.clean_of_quiet
  intro op hop
  obtain ⟨entry, -, hop⟩ := List.mem_flatMap.mp hop
  obtain ⟨identifier, -, rfl⟩ := List.mem_map.mp hop
  rfl

end

/-! ## Histories -/

/-- `luaL_ref` hands out a reference that is not in use. -/
def Event.Referenced (w : World) : Event → Prop
  | .connect _ _ callback _ => w.taken.count callback ≤ w.registry.released.count callback
  | .connectOnce _ _ callback _ => w.taken.count callback ≤ w.registry.released.count callback
  | _ => True

instance (event : Event) (w : World) : Decidable (event.Referenced w) :=
  match event with
  | .connect _ _ callback _ =>
      inferInstanceAs (Decidable (w.taken.count callback ≤ w.registry.released.count callback))
  | .connectOnce _ _ callback _ =>
      inferInstanceAs (Decidable (w.taken.count callback ≤ w.registry.released.count callback))
  | .disconnect .. => .isTrue trivial
  | .disconnectIdentified .. => .isTrue trivial
  | .freeConnections .. => .isTrue trivial
  | .removeAllConnectionsById .. => .isTrue trivial
  | .emit .. => .isTrue trivial
  | .advance _ => .isTrue trivial
  | .returned => .isTrue trivial

/-- The references taken and not released are those the modules store. -/
def World.Settled (w : World) : Prop := w.registry.ledger.Settled w.taken

/-- The events that leave no reference behind: `connect` is not refused, and
what takes out plain callbacks takes out the only one of the event. -/
def Event.Tight (w : World) : Event → Prop
  | .connect none _ _ _ => False
  | .connect (some this) event _ identifier => w.registry.Accepts this ⟨event, identifier⟩
  | .connectOnce this event _ identifier => w.registry.Accepts this ⟨event, identifier⟩
  | .disconnect this event callback _ => ¬ w.registry.ledger.Strands this ⟨event, []⟩ callback
  | .freeConnections this _ _ => w.registry.Slim this
  | .returned =>
      ∀ f ∈ w.frames.head?, f.topic.identifier = [] → ∀ r ∈ f.running,
        ∀ module ∈ f.modules.read (f.entered - 1),
          w.registry.Marked module f.topic r.callback →
          ¬ w.registry.ledger.Strands module f.topic r.callback
  | _ => True

theorem Op.strands_onceCheck {reg : Registry} {t : Topic} (module : ModuleId) (r : Registration) :
    Op.Strands reg (onceCheck t module r) ↔
      t.identifier = [] ∧ reg.Marked module t r.callback ∧
        reg.ledger.Strands module t r.callback := by
  by_cases hplain : t.identifier = []
  · obtain ⟨event, identifier⟩ := t
    cases hplain
    show (match (if reg.Marked module ⟨event, []⟩ r.callback then _ else _ : Entry) with
      | .remove m t callback => reg.ledger.Strands m t callback
      | _ => False) ↔ _
    by_cases hmarked : reg.Marked module ⟨event, []⟩ r.callback
    · rw [if_pos hmarked]
      exact ⟨fun h => ⟨rfl, hmarked, h⟩, fun h => h.2.2⟩
    · rw [if_neg hmarked]
      exact ⟨False.elim, fun h => hmarked h.2.1⟩
  · have hquiet : (onceCheck t module r).quiet = true := by
      unfold onceCheck
      rw [if_neg (fun hempty => hplain (List.isEmpty_iff.mp hempty))]
      rfl
    exact iff_of_false (Op.not_strands_of_quiet hquiet) (fun h => hplain h.1)

theorem onceCheck_stores (t : Topic) (module : ModuleId) (r : Registration) :
    (onceCheck t module r).stores = false := by
  unfold onceCheck
  split <;> rfl

/-- An event that is given no reference, and stores none. -/
theorem Event.settled_of_clean {event : Event} {w : World} {ops : List Op}
    (h : w.registry.Booked w.taken) (htaken : (event.record w).taken = w.taken)
    (hstores : ∀ op ∈ ops, op.stores = false)
    (hclean : w.registry.Clean ops ↔ event.Tight w) :
    (w.registry.applyAll ops).Booked (event.record w).taken ∧
      ((w.registry.applyAll ops).ledger.Settled (event.record w).taken ↔
        w.Settled ∧ event.Tight w) := by
  obtain ⟨hbooked, hsettled⟩ := Registry.booked_applyAll hstores h
  rw [htaken]
  constructor
  · exact hbooked
  · rw [hsettled, hclean]
    rfl

theorem Event.settled_of_quiet {event : Event} {w : World} {ops : List Op}
    (h : w.registry.Booked w.taken) (htaken : (event.record w).taken = w.taken)
    (htight : event.Tight w) (hquiet : ∀ op ∈ ops, op.quiet = true) :
    (w.registry.applyAll ops).Booked (event.record w).taken ∧
      ((w.registry.applyAll ops).ledger.Settled (event.record w).taken ↔
        w.Settled ∧ event.Tight w) := by
  apply Event.settled_of_clean h htaken
  · exact fun op hop => Op.stores_of_quiet (hquiet op hop)
  · exact iff_of_true (Registry.clean_of_quiet hquiet _) htight

/-- What the operations of an event do to the account. -/
theorem Event.ops_settled_iff {event : Event} {w : World} {ops : List Op}
    (h : w.registry.Booked w.taken) (hfresh : event.Referenced w) (hpossible : event.Possible w)
    (hops : event.ops w = some ops) :
    (w.registry.applyAll ops).Booked (event.record w).taken ∧
      ((w.registry.applyAll ops).ledger.Settled (event.record w).taken ↔
        w.Settled ∧ event.Tight w) := by
  cases event with
  | connect this event callback identifier =>
      cases this with
      | none =>
          cases hops
          obtain ⟨htake, hout, hnot⟩ := Ledger.Accounts.take h.accounts hfresh
          exact ⟨⟨h.tidy, htake⟩,
            iff_of_false (Ledger.not_settled_take hout hnot) (fun hboth => hboth.2)⟩
      | some this =>
          cases hops
          exact Registry.booked_store (.connect this event callback identifier) h hfresh rfl
  | connectOnce this event callback identifier =>
      cases hops
      exact Registry.booked_store (.connectOnce this event callback identifier) h hfresh rfl
  | disconnect this event callback clearList =>
      cases hops
      apply Event.settled_of_clean h rfl
      · intro op hop
        rw [List.mem_singleton.mp hop]
        rfl
      · exact and_iff_left trivial
  | disconnectIdentified this event identifier clearList =>
      cases hops
      refine Event.settled_of_quiet h rfl trivial ?_
      intro op hop
      rw [List.mem_singleton.mp hop]
      rfl
  | freeConnections this events identified =>
      cases hops
      apply Event.settled_of_clean h rfl
      · intro op hop
        rcases mem_freeOps hop with ⟨event, callback, rfl⟩ | ⟨event, identifier, rfl⟩
        · rfl
        · rfl
      · exact clean_freeOps_iff this h hpossible.2.1
  | removeAllConnectionsById identifier events =>
      refine Event.settled_of_quiet h rfl trivial ?_
      intro op hop
      rcases mem_removeOps hops op hop with ⟨module, event, rfl⟩ | ⟨event, rfl⟩
      · rfl
      · rfl
  | emit t spare =>
      cases hops
      refine Event.settled_of_quiet h rfl trivial ?_
      intro op hop
      split at hop
      · cases hop
      · rw [List.mem_singleton.mp hop]
        rfl
  | advance spare =>
      refine Event.settled_of_quiet h rfl trivial ?_
      intro op hop
      rcases Event.ops_advance hops with rfl | ⟨module, event, rfl⟩
      · cases hop
      · rw [List.mem_singleton.mp hop]
        rfl
  | returned =>
      obtain ⟨f, frames, r, module, hframes, hr, hmodule, rfl⟩ := Event.ops_returned hops
      apply Event.settled_of_clean h rfl
      · intro op hop
        rw [List.mem_singleton.mp hop]
        exact onceCheck_stores f.topic module r
      · show ¬ Op.Strands _ _ ∧ True ↔ _
        rw [and_true, Op.strands_onceCheck]
        show _ ↔ ∀ f ∈ w.frames.head?, _
        rw [hframes]
        constructor
        · intro hnot f' hf' hplain r' hr' module' hmodule' hmarked hstrands
          cases hf'
          cases hr.symm.trans hr'
          cases hmodule.symm.trans hmodule'
          exact hnot ⟨hplain, hmarked, hstrands⟩
        · rintro hall ⟨hplain, hmarked, hstrands⟩
          exact hall f rfl hplain r hr module hmodule hmarked hstrands

/-- What one event does to the account. -/
theorem step_settled_iff {event : Event} {w w' : World} (h : w.registry.Booked w.taken)
    (hfresh : event.Referenced w) (hstep : step event w = some w') :
    w'.registry.Booked w'.taken ∧ (w'.Settled ↔ w.Settled ∧ event.Tight w) := by
  obtain ⟨hpossible, ops, hops, hcontrol⟩ := step_eq_some hstep
  unfold World.Settled
  rw [Event.registry_of_control hcontrol, (step_records hstep).1]
  exact Event.ops_settled_iff h hfresh hpossible hops

theorem booked_empty : Registry.Booked {} [] := by
  have hnone : ∀ m t, Registry.registrations {} t m = [] := by
    intro m t
    show Module.registrations {} t = []
    unfold Module.registrations
    split <;> rfl
  have hholds : ∀ callback, ¬ Ledger.Holds (Registry.ledger {}) callback := by
    rintro callback ⟨m, t, r, hr, -⟩
    change r ∈ Registry.registrations {} t m at hr
    rw [hnone] at hr
    cases hr
  refine ⟨Registry.tidy_empty, ?_⟩
  constructor
  · exact fun _ => Nat.le_refl _
  · exact fun _ => Nat.zero_le _
  · exact fun callback hcallback => absurd hcallback (hholds callback)
  · intro m t r m' t' r' hr
    exact absurd ⟨m, t, r, hr, rfl⟩ (hholds r.callback)
  · intro m t r hr
    exact absurd ⟨m, t, r, hr, rfl⟩ (hholds r.callback)
  · intro m t
    show (Registry.registrations {} t m).Nodup
    rw [hnone]
    exact List.nodup_nil

theorem booked_history {events : List Event} {w : World}
    (hfresh : PartialRun.Obeys step (fun event w => event.Referenced w) events {})
    (h : history events {} = some w) : w.registry.Booked w.taken :=
  PartialRun.run_preserves_of (fun _ _ _ hs hP hstep => (step_settled_iff hs hP hstep).1)
    events {} w booked_empty hfresh h

theorem settled_empty : World.Settled {} := by
  refine ⟨fun _ => Nat.le_refl _, fun callback => ?_⟩
  apply iff_of_false
  · exact Nat.lt_irrefl 0
  · exact fun hholds => absurd (booked_empty.accounts.stored callback hholds) (Nat.lt_irrefl 0)

/-- After a history in which every `connect` was given a fresh reference, the
references taken and not released are those that are stored, exactly if none
of its events left one behind. -/
theorem references_accounted_iff (events : List Event) (w : World)
    (hfresh : PartialRun.Obeys step (fun event w => event.Referenced w) events {})
    (h : history events {} = some w) :
    w.Settled ↔ PartialRun.Obeys step (fun event w => event.Tight w) events {} := by
  have hrun := PartialRun.run_iff_obeys
    (fun _ _ _ hs hP hstep => step_settled_iff hs hP hstep) events {} w booked_empty hfresh h
  rw [hrun]
  exact and_iff_right settled_empty

theorem references_accounted_sample :
    ∃ w, history sampleHistory {} = some w ∧
      (w.Settled ↔ PartialRun.Obeys step (fun event w => event.Tight w) sampleHistory {}) := by
  have hruns : (history sampleHistory {}).isSome := by decide +kernel
  exact ⟨_, (Option.some_get hruns).symm,
    references_accounted_iff _ _ (by decide +kernel) (Option.some_get hruns).symm⟩

/-- Two callbacks of one module for one event. -/
def twoCallbacks : List Event :=
  [.connect (some 0) [1] 1 [], .connect (some 0) [1] 2 []]

/-- When the first of them is disconnected its reference stays taken. -/
theorem first_of_two_leaks :
    ∃ w, history (twoCallbacks ++ [.disconnect 0 [1] 1 true]) {} = some w ∧
      PartialRun.Obeys step (fun event w => event.Referenced w)
        (twoCallbacks ++ [.disconnect 0 [1] 1 true]) {} ∧
      ¬ w.Settled := by
  have hstrands :
      ∀ u ∈ history twoCallbacks {}, u.registry.ledger.Strands 0 ⟨[1], []⟩ 1 := by
    decide +kernel
  have hruns : (history (twoCallbacks ++ [.disconnect 0 [1] 1 true]) {}).isSome := by
    decide +kernel
  obtain ⟨w, hw⟩ := Option.isSome_iff_exists.mp hruns
  refine ⟨w, hw, by decide +kernel, fun hsettled => ?_⟩
  rw [history, PartialRun.run_append] at hw
  obtain ⟨u, hu, hlast⟩ := Option.bind_eq_some_iff.mp hw
  obtain ⟨v, hv, hend⟩ := PartialRun.run_cons_eq_some hlast
  cases hend
  have hbooked := booked_history (by decide +kernel) hu
  have hfresh : Event.Referenced u (.disconnect 0 [1] 1 true) := trivial
  have hiff := (step_settled_iff hbooked hfresh hv).2
  exact (hiff.mp hsettled).2 (hstrands u hu)

end LoginServer.Core
