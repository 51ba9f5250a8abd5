import LoginServer.Core.References

/-!
# The marks of `connectOnce`

`connectOnce` notes beside the connection that it goes after its first call:
the bare callback for a plain event, without the event; the identifier for
an event with identifier.  `checkConnectOnce` looks the note up, takes it out
and disconnects.  No `disconnect` does, so a note may outlive its connection,
and references and identifiers are used again.

## Main results

* `Op.sameMarks` — nothing but `connectOnce` and `checkConnectOnce` touches
  the marks.
* `marked_connectOnce` — what `connectOnce` marks.
* `marked_onceCheck`, `mem_onceCheck` — the notes and the connections
  `checkConnectOnce` takes out.
-/

namespace LoginServer.Core

open LoginServer.Verified

/-- The two lists of a module. -/
def Module.marks (m : Module) : List Int × AList (fun _ : EventName => List Identifier) :=
  (m.onceConnects, m.identifiedOnceConnects)

/-- One note is looked up for both: plain callbacks are told apart by the
reference alone. -/
def SharesMark (t : Topic) (callback : Int) (t' : Topic) (callback' : Int) : Prop :=
  if t.identifier = [] then t'.identifier = [] ∧ callback' = callback else t' = t

namespace Registry

/-- The marks are the same in both. -/
def SameMarks (reg reg' : Registry) : Prop :=
  ∀ m, (reg'.module m).marks = (reg.module m).marks

section
variable {reg reg' : Registry}

theorem SameMarks.refl (reg : Registry) : reg.SameMarks reg := fun _ => rfl

theorem SameMarks.trans {reg'' : Registry} (h : reg.SameMarks reg') (h' : reg'.SameMarks reg'') :
    reg.SameMarks reg'' := fun m => (h' m).trans (h m)

theorem SameMarks.marked_iff (h : reg.SameMarks reg') (m : ModuleId) (t : Topic)
    (callback : Int) : reg'.Marked m t callback ↔ reg.Marked m t callback := by
  have hplain := congrArg Prod.fst (h m)
  have hidentified := congrArg Prod.snd (h m)
  dsimp only [Module.marks] at hplain hidentified
  rw [Marked, Marked, hplain, hidentified]

end

section
variable (reg : Registry) (this : ModuleId) (event : EventName)

theorem sameMarks_setModule {m : Module} (h : m.marks = (reg.module this).marks) :
    reg.SameMarks (reg.setModule this m) := by
  intro i
  by_cases hi : i = this
  · rw [hi, setModule_this, h]
  · rw [show (reg.setModule this m).module i = reg.module i from if_neg hi]

theorem sameMarks_connect (callback : Int) (identifier : Identifier) :
    reg.SameMarks (reg.connect this event callback identifier).2 := by
  unfold connect
  dsimp only
  split
  · exact sameMarks_setModule reg this rfl
  · split
    · exact sameMarks_setModule reg this rfl
    · exact sameMarks_setModule reg this rfl

theorem sameMarks_disconnect (callback : Int) (clearList : Bool) :
    reg.SameMarks (reg.disconnect this event callback clearList) := by
  unfold disconnect
  dsimp only
  split
  · exact .refl reg
  · split
    · exact sameMarks_setModule reg this rfl
    · exact sameMarks_setModule reg this rfl

theorem sameMarks_disconnectIdentified (identifier : Identifier) (clearList : Bool) :
    reg.SameMarks (reg.disconnectIdentified this event identifier clearList) := by
  unfold disconnectIdentified
  dsimp only
  split
  · exact .refl reg
  · split
    · exact .refl reg
    · exact sameMarks_setModule reg this rfl

/-- What `connectOnce` marks. -/
theorem marked_connectOnce (callback : Int) (identifier : Identifier) (m : ModuleId) (t : Topic)
    (callback' : Int) :
    (reg.connectOnce this event callback identifier).2.Marked m t callback' ↔
      reg.Marked m t callback' ∨
        (reg.connect this event callback identifier).1 = true ∧ m = this ∧
          SharesMark ⟨event, identifier⟩ callback t callback' := by
  have hsame := reg.sameMarks_connect this event callback identifier
  unfold connectOnce
  generalize reg.connect this event callback identifier = result at hsame
  obtain ⟨success, reg'⟩ := result
  dsimp only at hsame ⊢
  cases success with
  | false =>
      rw [if_neg Bool.false_ne_true, hsame.marked_iff]
      simp
  | true =>
      rw [if_pos rfl, ← hsame.marked_iff]
      by_cases hm : m = this
      · subst hm
        by_cases hidentifier : identifier = []
        · subst hidentifier
          simp only [List.isEmpty_nil, if_true, Marked, setModule_this, SharesMark,
            List.mem_append, List.mem_singleton]
          split
          · rename_i ht
            simp [ht]
          · rename_i ht
            simp [ht]
        · rw [if_neg (fun hempty => hidentifier (List.isEmpty_iff.mp hempty))]
          simp only [Marked, setModule_this, SharesMark, hidentifier, if_false]
          obtain ⟨e, id⟩ := t
          by_cases hid : id = []
          · subst hid
            have hne : ¬ [] = identifier := fun h => hidentifier h.symm
            simp [hne]
          · by_cases he : e = event
            · subst he
              simp [hid, AList.lookup_insert]
            · simp [hid, he, AList.lookup_insert_ne he]
      · have hother : ∀ n, (reg'.setModule this n).module m = reg'.module m :=
          fun n => if_neg hm
        split <;> simp [Marked, hother, hm]

/-- `checkConnectOnce` takes out one note, which may be another's. -/
theorem marked_checkConnectOnce (callback : Int) (m : ModuleId) (t : Topic) (callback' : Int) :
    ((reg.checkConnectOnce this event callback).Marked m t callback' →
        reg.Marked m t callback') ∧
      (reg.Marked m t callback' →
        ¬ (m = this ∧ SharesMark ⟨event, []⟩ callback t callback') →
        (reg.checkConnectOnce this event callback).Marked m t callback') := by
  unfold checkConnectOnce
  dsimp only
  split
  · rw [(sameMarks_disconnect _ this event callback true).marked_iff]
    by_cases hm : m = this
    · subst hm
      unfold Marked
      rw [setModule_this]
      by_cases ht : t.identifier = []
      · simp only [ht, if_true, SharesMark, true_and]
        constructor
        · exact List.mem_of_mem_erase
        · intro hmem hne
          exact (List.mem_erase_of_ne hne).mpr hmem
      · simp only [ht, if_false]
        exact ⟨id, fun hmem _ => hmem⟩
    · unfold Marked
      rw [show (reg.setModule this _).module m = reg.module m from if_neg hm]
      exact ⟨id, fun hmarked _ => hmarked⟩
  · exact ⟨id, fun hmarked _ => hmarked⟩

theorem marked_checkConnectOnceIdentified {identifier : Identifier} (hne : identifier ≠ [])
    (m : ModuleId) (t : Topic) (callback callback' : Int) :
    ((reg.checkConnectOnceIdentified this event identifier).Marked m t callback' →
        reg.Marked m t callback') ∧
      (reg.Marked m t callback' →
        ¬ (m = this ∧ SharesMark ⟨event, identifier⟩ callback t callback') →
        (reg.checkConnectOnceIdentified this event identifier).Marked m t callback') := by
  unfold checkConnectOnceIdentified
  dsimp only
  split
  · exact ⟨id, fun hmarked _ => hmarked⟩
  · rename_i identifiers hidentifiers
    split
    · rw [(sameMarks_disconnectIdentified _ this event identifier true).marked_iff]
      by_cases hm : m = this
      · subst hm
        unfold Marked
        rw [setModule_this]
        by_cases ht : t.identifier = []
        · simp only [ht, if_true]
          exact ⟨id, fun hmem _ => hmem⟩
        · simp only [ht, if_false, SharesMark, hne, true_and]
          obtain ⟨e, id'⟩ := t
          by_cases he : e = event
          · subst he
            rw [AList.lookup_insert, hidentifiers]
            constructor
            · exact List.mem_of_mem_erase
            · intro hmem hother
              apply (List.mem_erase_of_ne _).mpr hmem
              rintro rfl
              exact hother rfl
          · rw [AList.lookup_insert_ne he]
            exact ⟨id, fun hmem _ => hmem⟩
      · unfold Marked
        rw [show (reg.setModule this _).module m = reg.module m from if_neg hm]
        exact ⟨id, fun hmarked _ => hmarked⟩
    · exact ⟨id, fun hmarked _ => hmarked⟩

end

end Registry

/-- The operations that write marks. -/
def Op.marking : Op → Bool
  | .connectOnce .. => true
  | .checkConnectOnce .. => true
  | .checkConnectOnceIdentified .. => true
  | _ => false

theorem Op.sameMarks {op : Op} (h : op.marking = false) (reg : Registry) :
    reg.SameMarks (op.apply reg) := by
  cases op with
  | connect this event callback identifier =>
      exact reg.sameMarks_connect this event callback identifier
  | disconnect this event callback clearList =>
      exact reg.sameMarks_disconnect this event callback clearList
  | disconnectIdentified this event identifier clearList =>
      exact reg.sameMarks_disconnectIdentified this event identifier clearList
  | openIdentifiedEvent event => exact .refl reg
  | openEventMap this event => exact reg.sameMarks_setModule this rfl
  | dropIdentifiedEvent event => exact .refl reg
  | connectOnce => cases h
  | checkConnectOnce => cases h
  | checkConnectOnceIdentified => cases h

theorem Registry.sameMarks_applyAll {ops : List Op} (h : ∀ op ∈ ops, op.marking = false)
    (reg : Registry) : reg.SameMarks (reg.applyAll ops) := by
  induction ops generalizing reg with
  | nil => exact .refl reg
  | cons op ops ih =>
      apply (Op.sameMarks (h op List.mem_cons_self) reg).trans
      exact ih (fun op' hop' => h op' (List.mem_cons_of_mem _ hop')) _

/-! ## `checkConnectOnce` as an emit calls it -/

section
variable {reg : Registry} {t : Topic} {module : ModuleId} {r : Registration}

theorem marked_onceCheck (m : ModuleId) (t' : Topic) (callback : Int) :
    (((onceCheck t module r).apply reg).Marked m t' callback → reg.Marked m t' callback) ∧
      (reg.Marked m t' callback → ¬ (m = module ∧ SharesMark t r.callback t' callback) →
        ((onceCheck t module r).apply reg).Marked m t' callback) := by
  obtain ⟨e, identifier⟩ := t
  unfold onceCheck
  split
  · rename_i hplain
    obtain rfl := List.isEmpty_iff.mp hplain
    exact reg.marked_checkConnectOnce module e r.callback m t' callback
  · rename_i hidentifier
    exact reg.marked_checkConnectOnceIdentified module e
      (fun hnil => hidentifier (List.isEmpty_iff.mpr hnil)) m t' r.callback callback

/-- Of a marked registration `checkConnectOnce` takes out the connection: the
callbacks with its reference, or whatever the identifier has. -/
theorem mem_onceCheck (h : reg.Tidy) {m : ModuleId} {t' : Topic} {x : Registration} :
    x ∈ ((onceCheck t module r).apply reg).registrations t' m ↔
      x ∈ reg.registrations t' m ∧
        ¬ (m = module ∧ t' = t ∧ reg.Marked module t r.callback ∧
          (t.identifier = [] → x.callback = r.callback)) := by
  rw [Op.registrations_apply _ h]
  show _ ↔ x ∈ reg.ledger.held m t' ∧ _
  obtain ⟨e, identifier⟩ := t
  unfold onceCheck
  split
  · rename_i hplain
    obtain rfl := List.isEmpty_iff.mp hplain
    show x ∈
      ((if reg.Marked module ⟨e, []⟩ r.callback then _ else _ : Entry).post _).held _ _ ↔ _
    by_cases hmarked : reg.Marked module ⟨e, []⟩ r.callback
    · rw [if_pos hmarked, Ledger.mem_held_remove]
      simp [hmarked]
    · rw [if_neg hmarked]
      simp [hmarked, Entry.post]
  · rename_i hidentifier
    have hne : identifier ≠ [] := fun hnil => hidentifier (List.isEmpty_iff.mpr hnil)
    have hmark : reg.Marked module ⟨e, identifier⟩ r.callback ↔
        identifier ∈ ((reg.module module).identifiedOnceConnects.lookup e).getD [] := by
      simp [Registry.Marked, hne]
    show x ∈ ((if identifier ∈ _ then reg.takeOut _ _ else _ : Entry).post _).held _ _ ↔ _
    by_cases hmarked : reg.Marked module ⟨e, identifier⟩ r.callback
    · rw [if_pos (hmark.mp hmarked), Registry.takeOut, if_neg hne]
      cases hhead : (reg.registrations ⟨e, identifier⟩ module).head? with
      | none =>
          have hempty := List.head?_eq_none_iff.mp hhead
          show x ∈ reg.ledger.held m t' ↔ _
          refine (and_iff_left_of_imp ?_).symm
          rintro hx ⟨rfl, rfl, -⟩
          change x ∈ reg.registrations ⟨e, identifier⟩ m at hx
          rw [hempty] at hx
          cases hx
      | some y =>
          show x ∈ ((Entry.remove module ⟨e, identifier⟩ y.callback).post _).held _ _ ↔ _
          rw [Ledger.mem_held_remove]
          apply and_congr_right
          intro hx
          simp only [hmarked, hne, false_implies, and_true, not_iff_not]
          constructor
          · exact fun hthree => ⟨hthree.1, hthree.2.1⟩
          · rintro ⟨rfl, rfl⟩
            refine ⟨rfl, rfl, ?_⟩
            change x ∈ reg.registrations ⟨e, identifier⟩ m at hx
            obtain ⟨rest, hlist⟩ := List.head?_eq_some_iff.mp hhead
            have hlength := Registry.length_registrations_le reg m ⟨e, identifier⟩ hidentifier
            rw [hlist] at hlength
            have hrest : rest = [] :=
              List.eq_nil_of_length_eq_zero (Nat.le_zero.mp (Nat.le_of_succ_le_succ hlength))
            rw [hlist, hrest, List.mem_singleton] at hx
            rw [hx]
    · rw [if_neg (fun hmem => hmarked (hmark.mpr hmem))]
      simp [hmarked, Entry.post]

end

end LoginServer.Core
