import LoginServer.Core.References

/-!
# Detaching a module

`freeConnections` copies what the module has connected, in the order in which
it finds it, and disconnects it piece by piece.  A callback may be in the copy
twice, and each of the two `disconnect`s may drop what later ones look for.

## Main results

* `Detaching.applyAll` — what a module's own `disconnect`s do to the others.
* `mem_registrations_of_frees`, `mem_eventMap_of_frees` — what they leave of its
  own.
* `free_connections_detaches` — all of it is gone, and nothing else.
-/

namespace LoginServer.Core

open LoginServer.Network (Bytes)

abbrev ExportName := Bytes

/-- `m_moduleExports`, with the references of what is exported. -/
abbrev ModuleExports := AList (fun _ : ModuleId => AList (fun _ : ExportName => Int))

/-- The end of `Module::freeConnections`. -/
def clearExports (moduleExports : ModuleExports) (this : ModuleId) : ModuleExports :=
  if this ∈ moduleExports then moduleExports.insert this ∅ else moduleExports

/-- `Module::freeConnections`, with the orders in which it finds its keys. -/
def freeConnections (reg : Registry) (moduleExports : ModuleExports) (this : ModuleId)
    (events : List EventName) (identified : List (EventName × List Identifier)) :
    Registry × ModuleExports :=
  (reg.applyAll (freeOps reg this events identified), clearExports moduleExports this)

/-- The module has nothing left, and of the others nothing has changed. -/
structure Detached (this : ModuleId) (reg reg' : Registry)
    (moduleExports moduleExports' : ModuleExports) : Prop where
  callbacks : ∀ event, (reg'.module this).eventCallbacks.lookup event = none
  identified : ∀ event identifier, reg'.identifiedCallback this event identifier = none
  unlisted : ∀ event, this ∉ reg'.listed event ∧ this ∉ reg'.listedIdentified event
  exports : (moduleExports'.lookup this).getD ∅ = ∅
  others : ∀ m, m ≠ this → reg'.module m = reg.module m
  order : ∀ event, reg'.listed event = (reg.listed event).filter (· ≠ this) ∧
    reg'.listedIdentified event = (reg.listedIdentified event).filter (· ≠ this)
  otherExports : ∀ m, m ≠ this → moduleExports'.lookup m = moduleExports.lookup m

/-- A module takes out connections of its own. -/
def Op.Frees (this : ModuleId) (op : Op) : Prop :=
  (∃ event callback, op = .disconnect this event callback true) ∨
    ∃ event identifier, op = .disconnectIdentified this event identifier true

/-! ## The other modules -/

section
variable {this : ModuleId} {reg reg' : Registry}

/-- What happens to the others: the module may be taken out of their lists. -/
structure Detaching (this : ModuleId) (reg reg' : Registry) : Prop where
  others : ∀ m, m ≠ this → reg'.module m = reg.module m
  listed : ∀ event, reg'.listed event = reg.listed event ∨
    reg'.listed event = (reg.listed event).filter (· ≠ this)
  listedIdentified : ∀ event, reg'.listedIdentified event = reg.listedIdentified event ∨
    reg'.listedIdentified event = (reg.listedIdentified event).filter (· ≠ this)

theorem filter_or_trans {a b c : List ModuleId} (h : b = a ∨ b = a.filter (· ≠ this))
    (h' : c = b ∨ c = b.filter (· ≠ this)) : c = a ∨ c = a.filter (· ≠ this) := by
  rcases h with rfl | rfl
  · exact h'
  · right
    rcases h' with rfl | rfl
    · rfl
    · rw [List.filter_filter]
      simp

theorem Detaching.trans {a b c : Registry} (h : Detaching this a b) (h' : Detaching this b c) :
    Detaching this a c where
  others m hm := (h'.others m hm).trans (h.others m hm)
  listed event := filter_or_trans (h.listed event) (h'.listed event)
  listedIdentified event := filter_or_trans (h.listedIdentified event) (h'.listedIdentified event)

theorem detaching_disconnect (reg : Registry) (event : EventName) (callback : Int) :
    Detaching this reg (reg.disconnect this event callback true) := by
  have hstep := Registry.plainStep_disconnect reg this event callback true
  refine ⟨hstep.other, fun e => ?_, fun e => ?_⟩
  · unfold Registry.listed
    by_cases he : e = event
    · subst he
      unfold Registry.disconnect
      dsimp only
      rw [Registry.clear_getD]
      split
      · exact Or.inl rfl
      · split
        · right
          rw [AList.lookup_insert]
          rfl
        · exact Or.inl rfl
    · rw [hstep.events e he]
      exact Or.inl rfl
  · unfold Registry.listedIdentified
    rw [hstep.identifiedEvents]
    exact Or.inl rfl

theorem detaching_disconnectIdentified (reg : Registry) (event : EventName)
    (identifier : Identifier) :
    Detaching this reg (reg.disconnectIdentified this event identifier true) := by
  have hstep := Registry.identifiedStep_disconnectIdentified reg this event identifier true
  refine ⟨hstep.other, fun e => ?_, fun e => ?_⟩
  · unfold Registry.listed
    rw [hstep.plainEvents]
    exact Or.inl rfl
  · unfold Registry.listedIdentified
    by_cases he : e = event
    · subst he
      unfold Registry.disconnectIdentified
      dsimp only
      split
      · exact Or.inl rfl
      · rw [Registry.clear_getD]
        split
        · exact Or.inl rfl
        · rw [AList.lookup_insert]
          split
          · exact Or.inr rfl
          · exact Or.inl rfl
    · rw [hstep.events e he]
      exact Or.inl rfl

theorem Op.Frees.detaching {op : Op} (h : op.Frees this) (reg : Registry) :
    Detaching this reg (op.apply reg) := by
  rcases h with ⟨event, callback, rfl⟩ | ⟨event, identifier, rfl⟩
  · exact detaching_disconnect reg event callback
  · exact detaching_disconnectIdentified reg event identifier

theorem Detaching.applyAll {ops : List Op} (hops : ∀ op ∈ ops, op.Frees this) :
    ∀ reg : Registry, Detaching this reg (reg.applyAll ops) := by
  induction ops with
  | nil => exact fun reg => ⟨fun _ _ => rfl, fun _ => Or.inl rfl, fun _ => Or.inl rfl⟩
  | cons op ops ih =>
      intro reg
      have hfirst := (hops op List.mem_cons_self).detaching reg
      exact hfirst.trans (ih (fun op' hop' => hops op' (List.mem_cons_of_mem _ hop')) _)

/-! ## The module itself -/

/-- A plain callback that is left was there before, and was not disconnected. -/
theorem mem_registrations_of_frees {ops : List Op} (hops : ∀ op ∈ ops, op.Frees this)
    (htidy : reg.Tidy) {event : EventName} {r : Registration}
    (hr : r ∈ (reg.applyAll ops).registrations ⟨event, []⟩ this) :
    r ∈ reg.registrations ⟨event, []⟩ this ∧
      Op.disconnect this event r.callback true ∉ ops := by
  induction ops generalizing reg with
  | nil => exact ⟨hr, List.not_mem_nil⟩
  | cons op ops ih =>
      obtain ⟨hmem, hnot⟩ := ih (fun op' hop' => hops op' (List.mem_cons_of_mem _ hop'))
        (op.tidy htidy) hr
      rcases hops op List.mem_cons_self with ⟨e, callback, rfl⟩ | ⟨e, identifier, rfl⟩
      · rw [Op.registrations_apply _ htidy] at hmem
        obtain ⟨hold, hkept⟩ := Ledger.mem_held_remove.mp hmem
        refine ⟨hold, List.not_mem_cons_of_ne_of_not_mem (fun heq => ?_) hnot⟩
        cases heq
        exact hkept ⟨rfl, rfl, rfl⟩
      · have hstep := Registry.identifiedStep_disconnectIdentified reg this e identifier true
        have hsame :=
          hstep.registrations (m := this) (t := ⟨event, []⟩) fun hall => hall.2.2 rfl
        exact ⟨hsame ▸ hmem, List.not_mem_cons_of_ne_of_not_mem nofun hnot⟩

/-- So is an identifier that is left. -/
theorem mem_eventMap_of_frees {ops : List Op} (hops : ∀ op ∈ ops, op.Frees this)
    {event : EventName} {i : Identifier} (hi : i ∈ (reg.applyAll ops).eventMap this event) :
    i ∈ reg.eventMap this event ∧ Op.disconnectIdentified this event i true ∉ ops := by
  induction ops generalizing reg with
  | nil => exact ⟨hi, List.not_mem_nil⟩
  | cons op ops ih =>
      obtain ⟨hmem, hnot⟩ := ih (fun op' hop' => hops op' (List.mem_cons_of_mem _ hop')) hi
      rcases hops op List.mem_cons_self with ⟨e, callback, rfl⟩ | ⟨e, identifier, rfl⟩
      · have hstep := Registry.plainStep_disconnect reg this e callback true
        change i ∈ (reg.disconnect this e callback true).eventMap this event at hmem
        rw [Registry.eventMap, hstep.identifiedCallbacks] at hmem
        exact ⟨hmem, List.not_mem_cons_of_ne_of_not_mem nofun hnot⟩
      · change i ∈ (reg.disconnectIdentified this e identifier true).eventMap this event at hmem
        rw [Registry.eventMap_disconnectIdentified] at hmem
        by_cases he : event = e
        · rw [if_pos ⟨rfl, he⟩] at hmem
          obtain ⟨hne, hold⟩ := AList.mem_erase.mp hmem
          refine ⟨hold, List.not_mem_cons_of_ne_of_not_mem (fun heq => ?_) hnot⟩
          cases heq
          exact hne rfl
        · rw [if_neg (fun hboth => he hboth.2)] at hmem
          refine ⟨hmem, List.not_mem_cons_of_ne_of_not_mem (fun heq => ?_) hnot⟩
          cases heq
          exact he rfl

end

/-! ## What the copies hold -/

section
variable {reg : Registry} {this : ModuleId} {events : List EventName}
  {identified : List (EventName × List Identifier)}
  (horder : FreeOrder reg this events identified)
include horder

theorem disconnect_mem_freeOps {event : EventName} {r : Registration}
    (hr : r ∈ reg.registrations ⟨event, []⟩ this) :
    Op.disconnect this event r.callback true ∈ freeOps reg this events identified := by
  rw [Registry.registrations_nil] at hr
  have hevent : event ∈ events := by
    rw [horder.1.mem_iff, ← AList.mem_keys, ← AList.lookup_isSome, Option.isSome_iff_ne_none]
    intro hnone
    rw [hnone] at hr
    cases hr
  apply List.mem_append_left
  exact List.mem_flatMap.mpr ⟨event, hevent, List.mem_map.mpr ⟨r, hr, rfl⟩⟩

theorem disconnectIdentified_mem_freeOps {event : EventName} {i : Identifier}
    (hi : i ∈ reg.eventMap this event) :
    Op.disconnectIdentified this event i true ∈ freeOps reg this events identified := by
  have hevent : event ∈ identified.map Prod.fst := by
    rw [horder.2.1.mem_iff, ← AList.mem_keys, ← AList.lookup_isSome, Option.isSome_iff_ne_none]
    intro hnone
    rw [Registry.eventMap, hnone] at hi
    exact List.not_mem_nil hi
  obtain ⟨entry, hentry, rfl⟩ := List.mem_map.mp hevent
  have hin : i ∈ entry.2 := (horder.2.2 entry hentry).mem_iff.mpr hi
  apply List.mem_append_right
  exact List.mem_flatMap.mpr ⟨entry, hentry, List.mem_map.mpr ⟨i, hin, rfl⟩⟩

end

theorem lookup_clearExports (moduleExports : ModuleExports) (this : ModuleId) :
    ((clearExports moduleExports this).lookup this).getD ∅ = ∅ := by
  unfold clearExports
  split
  · rw [AList.lookup_insert]
    rfl
  · rename_i hnone
    rw [AList.lookup_eq_none.mpr hnone]
    rfl

theorem lookup_clearExports_ne (moduleExports : ModuleExports) {this m : ModuleId}
    (h : m ≠ this) :
    (clearExports moduleExports this).lookup m = moduleExports.lookup m := by
  unfold clearExports
  split
  · exact AList.lookup_insert_ne h
  · rfl

/-- A list without the module is the old one without it. -/
theorem filter_of_unlisted {this : ModuleId} {modules modules' : List ModuleId}
    (h : modules' = modules ∨ modules' = modules.filter (· ≠ this))
    (hnot : this ∉ modules') :
    modules' = modules.filter (· ≠ this) := by
  rcases h with rfl | h
  · refine (List.filter_eq_self.mpr fun m hm => ?_).symm
    simpa using fun heq : m = this => hnot (heq ▸ hm)
  · exact h

/-- In whatever order it finds its keys, a module that frees its connections
has nothing left, and nothing else has changed. -/
theorem free_connections_detaches (reg : Registry) (hreg : Reachable reg)
    (moduleExports : ModuleExports) (this : ModuleId) (events : List EventName)
    (identified : List (EventName × List Identifier))
    (horder : FreeOrder reg this events identified) :
    Detached this reg (freeConnections reg moduleExports this events identified).1 moduleExports
      (freeConnections reg moduleExports this events identified).2 := by
  have hops : ∀ op ∈ freeOps reg this events identified, op.Frees this := fun _ => mem_freeOps
  show Detached this reg (reg.applyAll (freeOps reg this events identified)) moduleExports
    (clearExports moduleExports this)
  have hdetaching := Detaching.applyAll hops reg
  have htidy := Registry.applyAll_preserves (fun op _ => op.tidy)
    (freeOps reg this events identified) reg hreg.tidy
  have hconsistent := Registry.applyAll_preserves (fun op _ => op.consistent)
    (freeOps reg this events identified) reg hreg.consistent
  have hcallbacks : ∀ event,
      (reg.applyAll (freeOps reg this events identified)).registrations
        ⟨event, []⟩ this = [] := by
    intro event
    refine List.eq_nil_iff_forall_not_mem.mpr fun r hr => ?_
    obtain ⟨hold, hnot⟩ := mem_registrations_of_frees hops hreg.tidy hr
    exact hnot (disconnect_mem_freeOps horder hold)
  have hmap : ∀ event i,
      i ∉ (reg.applyAll (freeOps reg this events identified)).eventMap this event := by
    intro event i hi
    obtain ⟨hold, hnot⟩ := mem_eventMap_of_frees hops hi
    exact hnot (disconnectIdentified_mem_freeOps horder hold)
  generalize reg.applyAll (freeOps reg this events identified) = reg' at *
  have hunlisted :
      ∀ event, this ∉ reg'.listed event ∧ this ∉ reg'.listedIdentified event := by
    intro event
    constructor
    · rw [hconsistent.plain.listed]
      rintro ⟨callbacks, hlookup, hne⟩
      have hnil := hcallbacks event
      rw [Registry.registrations_nil, hlookup] at hnil
      exact hne hnil
    · rw [hconsistent.identified.listed, Registry.hasIdentified_iff, not_not]
      exact List.eq_nil_iff_forall_not_mem.mpr fun i => hmap event i
  constructor
  · intro event
    have hnil := hcallbacks event
    rw [Registry.registrations_nil] at hnil
    cases hlookup : (reg'.module this).eventCallbacks.lookup event with
    | none => rfl
    | some callbacks =>
        rw [hlookup, Option.getD_some] at hnil
        exact absurd (hnil ▸ hlookup) ((htidy this).callbacks event)
  · exact fun event i => AList.lookup_eq_none.mpr (hmap event i)
  · exact hunlisted
  · exact lookup_clearExports moduleExports this
  · exact hdetaching.others
  · intro event
    exact ⟨filter_of_unlisted (hdetaching.listed event) (hunlisted event).1,
      filter_of_unlisted (hdetaching.listedIdentified event) (hunlisted event).2⟩
  · exact fun m hm => lookup_clearExports_ne moduleExports hm

/-- A module with the same callback twice and one with an identifier, and
another module. -/
def twiceConnected : Registry :=
  Registry.applyAll {} [.connect 0 [120] 7 [], .connect 1 [120] 8 [], .connect 0 [120] 7 [],
    .connect 0 [121] 9 [105]]

theorem free_connections_sample :
    Detached 0 twiceConnected
      (freeConnections twiceConnected (AList.singleton 0 (AList.singleton [122] 3)) 0 [[120]]
        [([121], [[105]])]).1
      (AList.singleton 0 (AList.singleton [122] 3))
      (freeConnections twiceConnected (AList.singleton 0 (AList.singleton [122] 3)) 0 [[120]]
        [([121], [[105]])]).2 :=
  free_connections_detaches twiceConnected ⟨_, rfl⟩ _ 0 [[120]] [([121], [[105]])]
    (by decide +kernel)

end LoginServer.Core
