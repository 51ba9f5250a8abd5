import LoginServer.Core.CallNumbers
import LoginServer.Core.OnceMarks

/-!
# Once means once

A registration of `connectOnce` is to be called by one emit, and one of
`connect` stays until something names it.  Both hang on a note that lies
beside the connection.  A note that outlived its connection makes
`checkConnectOnce` remove a later `connect`; a note that another registration
with the same reference used up leaves its own registration in place; a
callback that emits its own event is called again before it is removed; and a
loop may call what it copied, or look into another module than the one whose
callback it called, when its vectors were changed.

## Main results

* `Op.mem_or_names` — what an operation takes out, it names.
* `step_kept`, `step_disciplined` — one event.
* `once_means_once` — histories in which none of the above happens.
-/

namespace LoginServer.Core

open LoginServer.Verified

/-- No two emits have called a registration of `connectOnce`. -/
def World.AtMostOneEmit (w : World) : Prop :=
  ∀ serial ∈ w.once, ∀ k k', (k, serial) ∈ w.calls → (k', serial) ∈ w.calls → k = k'

/-- The connections an event asks to disconnect. -/
def Event.Names (m : ModuleId) (t : Topic) (r : Registration) : Event → Prop
  | .disconnect this event callback _ => m = this ∧ t = ⟨event, []⟩ ∧ r.callback = callback
  | .disconnectIdentified this event identifier _ => m = this ∧ t = ⟨event, identifier⟩
  | .freeConnections this _ _ => m = this
  | .removeAllConnectionsById identifier _ => t.identifier = identifier
  | _ => False

/-- A connection of `connect` is there after an event that does not name it. -/
def Event.Keeps (w : World) (event : Event) : Prop :=
  ∀ w', step event w = some w' → ∀ m t, ∀ r ∈ w.registry.registrations t m,
    r.serial ∉ w.once →
    r ∈ w'.registry.registrations t m ∨ event.Names m t r

/-- The modules the manager lists for a topic. -/
def Registry.listeners (reg : Registry) (t : Topic) : List ModuleId :=
  (reg.subscribers t).getD []

/-- What the innermost loop calls next is not a registration of `connectOnce`
that is gone or that is being called. -/
def World.CallsFresh (w : World) : Prop :=
  ∀ f ∈ w.frames.head?, ∀ r ∈ f.upcoming w.registry, r.serial ∈ w.once →
    (∃ m ∈ w.registry.listeners f.topic, r ∈ w.registry.registrations f.topic m) ∧
      ∀ g ∈ w.frames, r ∉ g.running

/-- No registration of `connectOnce` has the reference at another plain event
of the module. -/
def World.OwnReference (w : World) (module : ModuleId) (event : EventName) (callback : Int) :
    Prop :=
  ∀ e ∈ (w.registry.module module).eventCallbacks.keys,
    ∀ x ∈ w.registry.registrations ⟨e, []⟩ module,
      x.serial ∈ w.once → x.callback = callback → e = event

instance (w : World) (module : ModuleId) (event : EventName) (callback : Int) :
    Decidable (w.OwnReference module event callback) :=
  inferInstanceAs (Decidable (∀ e ∈ (w.registry.module module).eventCallbacks.keys,
    ∀ x ∈ w.registry.registrations ⟨e, []⟩ module,
      x.serial ∈ w.once → x.callback = callback → e = event))

/-- When a callback has returned, its registration is in the module
`checkConnectOnce` is called with, or nowhere, and the note that is taken out
is not another's. -/
def World.ChecksOwn (w : World) : Prop :=
  ∀ f ∈ w.frames.head?, ∀ r ∈ f.running, ∀ module ∈ f.modules.read (f.entered - 1),
    (r.serial ∈ w.once → ∀ m ∈ w.registry.listeners f.topic,
      r ∈ w.registry.registrations f.topic m → m = module) ∧
    (f.topic.identifier = [] → w.OwnReference module f.topic.event r.callback)

/-- `connect` finds no note of an earlier `connectOnce`, and the emits call
and check what they mean to. -/
def Event.Orderly (w : World) : Event → Prop
  | .connect (some this) event callback identifier =>
      w.registry.Accepts this ⟨event, identifier⟩ →
        ¬ w.registry.Marked this ⟨event, identifier⟩ callback
  | .advance spare => ∀ ops ∈ Event.ops w (.advance spare), (w.applyAll ops).CallsFresh
  | .returned => w.ChecksOwn
  | _ => True

instance (w : World) : Decidable w.CallsFresh :=
  inferInstanceAs (Decidable (∀ f ∈ w.frames.head?, ∀ r ∈ f.upcoming w.registry,
    r.serial ∈ w.once → (∃ m ∈ _, r ∈ _) ∧ ∀ g ∈ w.frames, r ∉ g.running))

instance (w : World) : Decidable w.ChecksOwn :=
  inferInstanceAs (Decidable (∀ f ∈ w.frames.head?, ∀ r ∈ f.running,
    ∀ module ∈ f.modules.read (f.entered - 1),
      (r.serial ∈ w.once → ∀ m ∈ w.registry.listeners f.topic,
        r ∈ w.registry.registrations f.topic m → m = module) ∧
      (f.topic.identifier = [] → w.OwnReference module f.topic.event r.callback)))

instance (event : Event) (w : World) : Decidable (event.Orderly w) :=
  match event with
  | .connect none _ _ _ => .isTrue trivial
  | .connect (some this) event callback identifier =>
      inferInstanceAs (Decidable (w.registry.Accepts this ⟨event, identifier⟩ →
        ¬ w.registry.Marked this ⟨event, identifier⟩ callback))
  | .connectOnce .. => .isTrue trivial
  | .disconnect .. => .isTrue trivial
  | .disconnectIdentified .. => .isTrue trivial
  | .freeConnections .. => .isTrue trivial
  | .removeAllConnectionsById .. => .isTrue trivial
  | .emit .. => .isTrue trivial
  | .advance spare =>
      inferInstanceAs (Decidable (∀ ops ∈ Event.ops w (.advance spare),
        (w.applyAll ops).CallsFresh))
  | .returned => inferInstanceAs (Decidable w.ChecksOwn)

/-! ## What goes is named -/

/-- The operations `checkConnectOnce` consists of. -/
def Op.checking : Op → Bool
  | .checkConnectOnce .. => true
  | .checkConnectOnceIdentified .. => true
  | _ => false

/-- The connections an operation asks to disconnect. -/
def Op.Names (m : ModuleId) (t : Topic) (r : Registration) : Op → Prop
  | .disconnect this event callback _ => m = this ∧ t = ⟨event, []⟩ ∧ r.callback = callback
  | .disconnectIdentified this event identifier _ => m = this ∧ t = ⟨event, identifier⟩
  | _ => False

section
variable {reg : Registry} {m : ModuleId} {t : Topic} {r : Registration}

theorem Op.mem_or_names (op : Op) (hop : op.checking = false) (h : reg.Tidy)
    (hr : r ∈ reg.registrations t m) :
    r ∈ (op.apply reg).registrations t m ∨ op.Names m t r := by
  rw [op.registrations_apply h]
  apply (Ledger.mem_post_or (op.entry reg) hr).imp_right
  intro hentry
  cases op with
  | connect this event callback identifier =>
      change (if _ then _ else _ : Entry) = _ at hentry
      split at hentry <;> cases hentry
  | connectOnce this event callback identifier =>
      change (if _ then _ else _ : Entry) = _ at hentry
      split at hentry <;> cases hentry
  | disconnect this event callback clearList =>
      cases hentry
      exact ⟨rfl, rfl, rfl⟩
  | disconnectIdentified this event identifier clearList =>
      change reg.takeOut _ _ = _ at hentry
      unfold Registry.takeOut at hentry
      split at hentry
      · cases hentry
      · split at hentry
        · cases hentry
        · obtain ⟨rfl, rfl, -⟩ := Entry.remove.inj hentry
          exact ⟨rfl, rfl⟩
  | checkConnectOnce => cases hop
  | checkConnectOnceIdentified => cases hop
  | openIdentifiedEvent => cases hentry
  | openEventMap => cases hentry
  | dropIdentifiedEvent => cases hentry

theorem Registry.mem_applyAll_or {ops : List Op} (hops : ∀ op ∈ ops, op.checking = false)
    (h : reg.Tidy) (hr : r ∈ reg.registrations t m) :
    r ∈ (reg.applyAll ops).registrations t m ∨ ∃ op ∈ ops, op.Names m t r := by
  induction ops generalizing reg with
  | nil => exact Or.inl hr
  | cons op ops ih =>
      rcases op.mem_or_names (hops op List.mem_cons_self) h hr with hkept | hnamed
      · rcases ih (fun op' hop' => hops op' (List.mem_cons_of_mem _ hop')) (op.tidy h) hkept with
          hall | ⟨op', hop', hnamed⟩
        · exact Or.inl hall
        · exact Or.inr ⟨op', List.mem_cons_of_mem _ hop', hnamed⟩
      · exact Or.inr ⟨op, List.mem_cons_self, hnamed⟩

/-- Operations that store nothing leave nothing new. -/
theorem Registry.mem_of_mem_applyAll {ops : List Op} (hops : ∀ op ∈ ops, op.stores = false)
    (h : reg.Tidy) (hr : r ∈ (reg.applyAll ops).registrations t m) :
    r ∈ reg.registrations t m := by
  induction ops generalizing reg with
  | nil => exact hr
  | cons op ops ih =>
      have hone := ih (fun op' hop' => hops op' (List.mem_cons_of_mem _ hop')) (op.tidy h) hr
      rw [op.registrations_apply h] at hone
      rcases Ledger.mem_of_post hone with hold | ⟨hentry, -⟩
      · exact hold
      · exact absurd hentry (Op.entry_ne_add (hops op List.mem_cons_self) m t r.callback)

/-- What `connect` and `connectOnce` store, if they are not refused. -/
theorem Registry.mem_of_store (op : Op) {this : ModuleId} {t' : Topic} {callback : Int}
    (h : reg.Tidy)
    (hentry : op.entry reg =
      if reg.Accepts this t' then .add this t' callback else .nothing)
    (hr : r ∈ (op.apply reg).registrations t m) :
    r ∈ reg.registrations t m ∨
      reg.Accepts this t' ∧ m = this ∧ t = t' ∧ r = ⟨callback, reg.serial⟩ := by
  rw [op.registrations_apply h] at hr
  rcases Ledger.mem_of_post hr with hold | ⟨hadd, hserial⟩
  · exact Or.inl hold
  · rw [hentry] at hadd
    split at hadd
    · rename_i haccepts
      obtain ⟨rfl, rfl, rfl⟩ := Entry.add.inj hadd
      cases r
      cases hserial
      exact Or.inr ⟨haccepts, rfl, rfl, rfl⟩
    · cases hadd

end

/-- The events whose operations only disconnect and open maps. -/
def Event.subtracts : Event → Bool
  | .connect (some _) .. => false
  | .connectOnce .. => false
  | .returned => false
  | _ => true

/-- The operations of such an event. -/
structure Op.Subtracts (op : Op) : Prop where
  stores : op.stores = false
  marking : op.marking = false
  checking : op.checking = false

theorem Event.ops_subtract {event : Event} {w : World} {ops : List Op}
    (hevent : event.subtracts = true) (hops : event.ops w = some ops) :
    ∀ op ∈ ops, op.Subtracts ∧ ∀ m t r, op.Names m t r → event.Names m t r := by
  intro op hop
  cases event with
  | connect this event callback identifier =>
      cases this with
      | none =>
          cases hops
          cases hop
      | some this => cases hevent
  | connectOnce => cases hevent
  | disconnect this event callback clearList =>
      cases hops
      rw [List.mem_singleton.mp hop]
      exact ⟨⟨rfl, rfl, rfl⟩, fun m t r hnames => hnames⟩
  | disconnectIdentified this event identifier clearList =>
      cases hops
      rw [List.mem_singleton.mp hop]
      exact ⟨⟨rfl, rfl, rfl⟩, fun m t r hnames => hnames⟩
  | freeConnections this events identified =>
      cases hops
      rcases mem_freeOps hop with ⟨event, callback, rfl⟩ | ⟨event, identifier, rfl⟩
      · exact ⟨⟨rfl, rfl, rfl⟩, fun m t r hnames => hnames.1⟩
      · exact ⟨⟨rfl, rfl, rfl⟩, fun m t r hnames => hnames.1⟩
  | removeAllConnectionsById identifier events =>
      rcases mem_removeOps hops op hop with ⟨module, event, rfl⟩ | ⟨event, rfl⟩
      · refine ⟨⟨rfl, rfl, rfl⟩, ?_⟩
        rintro m t r ⟨-, rfl⟩
        rfl
      · exact ⟨⟨rfl, rfl, rfl⟩, fun m t r hnames => hnames.elim⟩
  | emit t spare =>
      cases hops
      split at hop
      · cases hop
      · rw [List.mem_singleton.mp hop]
        exact ⟨⟨rfl, rfl, rfl⟩, fun m t r hnames => hnames⟩
  | advance spare =>
      rcases Event.ops_advance hops with rfl | ⟨module, event, rfl⟩
      · cases hop
      · rw [List.mem_singleton.mp hop]
        exact ⟨⟨rfl, rfl, rfl⟩, fun m t r hnames => hnames⟩
  | returned => cases hevent

/-! ## What an orderly history keeps -/

/-- The notes are those of the registrations of `connectOnce` that are stored,
and one of these is being called if it was called at all. -/
structure World.Disciplined (w : World) : Prop where
  older : ∀ serial ∈ w.once, serial < w.registry.serial
  marked : ∀ m t, ∀ x ∈ w.registry.registrations t m, x.serial ∈ w.once →
    w.registry.Marked m t x.callback
  unmarked : ∀ m t, ∀ x ∈ w.registry.registrations t m, x.serial ∉ w.once →
    ¬ w.registry.Marked m t x.callback
  running : ∀ m t, ∀ x ∈ w.registry.registrations t m, x.serial ∈ w.once →
    ∀ k, (k, x.serial) ∈ w.calls → ∃ label ∈ w.labels, label.2 = (k, some x)
  topic : ∀ m t, ∀ x ∈ w.registry.registrations t m, x.serial ∈ w.once →
    ∀ label ∈ w.labels, label.2.2 = some x → label.1 = t
  single : w.AtMostOneEmit

section
variable {w w' : World}

theorem disciplined_empty : World.Disciplined {} := by
  have hnone : ∀ m t x, x ∉ Registry.registrations {} t m :=
    fun m t x hx => absurd ((wellFormed_empty t).bound m x hx) (Nat.not_lt_zero _)
  constructor
  · exact fun serial h => (List.not_mem_nil h).elim
  · exact fun m t x hx => (hnone m t x hx).elim
  · exact fun m t x hx => (hnone m t x hx).elim
  · exact fun m t x hx => (hnone m t x hx).elim
  · exact fun m t x hx => (hnone m t x hx).elim
  · exact fun serial h => (List.not_mem_nil h).elim

/-- Where nothing is stored or noted that was not, and the loops stand. -/
theorem World.Disciplined.subtract (h : w.Disciplined)
    (hserial : w.registry.serial ≤ w'.registry.serial)
    (hheld : ∀ m t x, x ∈ w'.registry.registrations t m → x ∈ w.registry.registrations t m)
    (hmarks : ∀ m t c, w'.registry.Marked m t c ↔ w.registry.Marked m t c)
    (honce : w'.once = w.once)
    (hcalls : w'.calls = w.calls) (hlabels : w'.labels = w.labels) : w'.Disciplined := by
  constructor
  · rw [honce]
    exact fun serial hmem => Nat.lt_of_lt_of_le (h.older serial hmem) hserial
  · intro m t x hx
    rw [honce, hmarks]
    exact h.marked m t x (hheld m t x hx)
  · intro m t x hx
    rw [honce, hmarks]
    exact h.unmarked m t x (hheld m t x hx)
  · intro m t x hx
    rw [honce, hcalls, hlabels]
    exact h.running m t x (hheld m t x hx)
  · intro m t x hx
    rw [honce, hlabels]
    exact h.topic m t x (hheld m t x hx)
  · rw [World.AtMostOneEmit, honce, hcalls]
    exact h.single

theorem World.Disciplined.subtractAll (h : w.Disciplined) (htidy : w.registry.Tidy)
    {ops : List Op} (hops : ∀ op ∈ ops, op.Subtracts) : (w.applyAll ops).Disciplined := by
  have hsame := w.sameLoops_applyAll ops
  refine h.subtract ?_ ?_ ?_ hsame.once hsame.calls hsame.labels
  · rw [World.registry_applyAll]
    exact serial_le_applyAll ops w.registry
  · intro m t x hx
    rw [World.registry_applyAll] at hx
    exact Registry.mem_of_mem_applyAll (fun op hop => (hops op hop).stores) htidy hx
  · rw [World.registry_applyAll]
    exact (Registry.sameMarks_applyAll (fun op hop => (hops op hop).marking) w.registry).marked_iff

/-! ## The loops -/

/-- A loop begins, ends, or goes on without calling anything. -/
theorem World.Disciplined.relabel (h : w.Disciplined) (hregistry : w'.registry = w.registry)
    (honce : w'.once = w.once) (hcalls : w'.calls = w.calls)
    (hlabels : ∀ t k x, (t, k, some x) ∈ w'.labels ↔ (t, k, some x) ∈ w.labels) :
    w'.Disciplined := by
  constructor
  · rw [honce, hregistry]
    exact h.older
  · rw [honce, hregistry]
    exact h.marked
  · rw [honce, hregistry]
    exact h.unmarked
  · intro m t x hx honce' k hk
    rw [hregistry] at hx
    rw [honce] at honce'
    rw [hcalls] at hk
    obtain ⟨⟨t', k', running⟩, hmem, heq⟩ := h.running m t x hx honce' k hk
    cases heq
    exact ⟨_, (hlabels t' k x).mpr hmem, rfl⟩
  · intro m t x hx honce' label hlabel heq
    obtain ⟨t', k, running⟩ := label
    cases heq
    rw [hregistry] at hx
    rw [honce] at honce'
    exact h.topic m t x hx honce' _ ((hlabels t' k x).mp hlabel) rfl
  · rw [World.AtMostOneEmit, honce, hcalls]
    exact h.single

/-- The innermost loop calls a registration. -/
theorem World.Disciplined.call (h : w.Disciplined) (hnumbered : w.Numbered)
    (hunique : ∀ m t m' t' x, x ∈ w.registry.registrations t m →
      x ∈ w.registry.registrations t' m' → t = t')
    {f : EmitFrame} {frames : List EmitFrame} (hframes : w.frames = f :: frames)
    (hnone : f.running = none) {r : Registration}
    (hfresh : r.serial ∈ w.once → (∃ m, r ∈ w.registry.registrations f.topic m) ∧
      ∀ g ∈ w.frames, r ∉ g.running)
    (hregistry : w'.registry = w.registry) (honce : w'.once = w.once)
    (hcalls : w'.calls = w.calls ++ [(f.number, r.serial)])
    (hlabels : w'.labels = (f.topic, f.number, some r) :: frames.map EmitFrame.label) :
    w'.Disciplined := by
  have hold : w.labels = (f.topic, f.number, none) :: frames.map EmitFrame.label := by
    rw [World.labels, hframes, List.map_cons, EmitFrame.label, hnone]
  have hlabels' : ∀ t k x, (t, k, some x) ∈ w'.labels ↔
      (t, k, some x) ∈ w.labels ∨ (t = f.topic ∧ k = f.number ∧ x = r) := by
    intro t k x
    rw [hlabels, hold]
    simp [or_comm]
  -- nobody has called a registration of `connectOnce` that is stored and idle
  have hnever : r.serial ∈ w.once → ∀ k, (k, r.serial) ∉ w.calls := by
    intro hmem k hk
    obtain ⟨⟨m, hr⟩, hidle⟩ := hfresh hmem
    obtain ⟨label, hlabel, heq⟩ := h.running m f.topic r hr hmem k hk
    obtain ⟨g, hg, rfl⟩ := List.mem_map.mp hlabel
    exact hidle g hg (congrArg Prod.snd heq)
  have hcall : ∀ k serial, (k, serial) ∈ w'.calls →
      (k, serial) ∈ w.calls ∨ (k = f.number ∧ serial = r.serial) := by
    intro k serial hk
    rw [hcalls] at hk
    rcases List.mem_append.mp hk with hk | hk
    · exact Or.inl hk
    · cases List.mem_singleton.mp hk
      exact Or.inr ⟨rfl, rfl⟩
  constructor
  · rw [honce, hregistry]
    exact h.older
  · rw [honce, hregistry]
    exact h.marked
  · rw [honce, hregistry]
    exact h.unmarked
  · intro m t x hx honce' k hk
    rw [hregistry] at hx
    rw [honce] at honce'
    rcases hcall k x.serial hk with hk | ⟨rfl, hserial⟩
    · obtain ⟨⟨t', k', running⟩, hmem, heq⟩ := h.running m t x hx honce' k hk
      cases heq
      exact ⟨_, (hlabels' t' k x).mpr (Or.inl hmem), rfl⟩
    · obtain ⟨⟨m', hr⟩, -⟩ := hfresh (hserial ▸ honce')
      obtain rfl := hnumbered.single m t x m' f.topic r hx hr hserial
      exact ⟨_, (hlabels' f.topic f.number x).mpr (Or.inr ⟨rfl, rfl, rfl⟩), rfl⟩
  · intro m t x hx honce' label hlabel heq
    obtain ⟨t', k, running⟩ := label
    cases heq
    rw [hregistry] at hx
    rw [honce] at honce'
    rcases (hlabels' t' k x).mp hlabel with hmem | ⟨rfl, -, rfl⟩
    · exact h.topic m t x hx honce' _ hmem rfl
    · obtain ⟨⟨m', hr⟩, -⟩ := hfresh honce'
      exact hunique m' f.topic m t x hr hx
  · intro serial hmem k k' hk hk'
    rw [honce] at hmem
    rcases hcall k serial hk with hk | ⟨rfl, rfl⟩
    · rcases hcall k' serial hk' with hk' | ⟨rfl, rfl⟩
      · exact h.single serial hmem k k' hk hk'
      · exact absurd hk (hnever hmem k)
    · rcases hcall k' r.serial hk' with hk' | ⟨rfl, -⟩
      · exact absurd hk' (hnever hmem k')
      · rfl

/-! ## The events -/

/-- The identities of the stored registrations. -/
structure World.Kept (w : World) : Prop where
  numbered : w.Numbered
  booked : w.registry.Booked w.taken
  disciplined : w.Disciplined

/-- A registration is stored in one place. -/
theorem Registry.Booked.one_place {reg : Registry} {taken : List Int} (h : reg.Booked taken)
    {m m' : ModuleId} {t t' : Topic} {x : Registration} (hx : x ∈ reg.registrations t m)
    (hx' : x ∈ reg.registrations t' m') : m = m' ∧ t = t' := by
  obtain ⟨hm, ht, -⟩ := h.accounts.unique m t x m' t' x hx hx' rfl
  exact ⟨hm, ht⟩

theorem mem_listeners (h : w.Numbered) {m : ModuleId} {t : Topic} {x : Registration}
    (hx : x ∈ w.registry.registrations t m) : m ∈ w.registry.listeners t :=
  (h.views t).listed m (List.ne_nil_of_mem hx)

/-- `connect` of a module. -/
theorem World.Kept.connect (h : w.Kept) {this : ModuleId} {event : EventName} {callback : Int}
    {identifier : Identifier}
    (horderly : Event.Orderly w (.connect (some this) event callback identifier))
    (hregistry : w'.registry = (w.registry.connect this event callback identifier).2)
    (honce : w'.once = w.once) (hcalls : w'.calls = w.calls) (hlabels : w'.labels = w.labels) :
    w'.Disciplined := by
  have hd := h.disciplined
  have hmarks : w.registry.SameMarks w'.registry := by
    rw [hregistry]
    exact w.registry.sameMarks_connect this event callback identifier
  have hheld : ∀ m t x, x ∈ w'.registry.registrations t m →
      x ∈ w.registry.registrations t m ∨
        w.registry.Accepts this ⟨event, identifier⟩ ∧ m = this ∧
          t = ⟨event, identifier⟩ ∧
          x = ⟨callback, w.registry.serial⟩ := by
    intro m t x hx
    rw [hregistry] at hx
    let op : Op := .connect this event callback identifier
    exact Registry.mem_of_store op h.numbered.tidy rfl hx
  have hnew : w.registry.serial ∉ w.once :=
    fun hmem => absurd (hd.older _ hmem) (Nat.lt_irrefl _)
  constructor
  · intro serial hmem
    rw [honce] at hmem
    rw [hregistry]
    exact Nat.lt_of_lt_of_le (hd.older serial hmem)
      (serial_le_apply (.connect this event callback identifier) w.registry)
  · intro m t x hx hmem
    rw [honce] at hmem
    rw [hmarks.marked_iff]
    rcases hheld m t x hx with hold | ⟨-, -, -, rfl⟩
    · exact hd.marked m t x hold hmem
    · exact absurd hmem hnew
  · intro m t x hx hmem
    rw [honce] at hmem
    rw [hmarks.marked_iff]
    rcases hheld m t x hx with hold | ⟨haccepts, rfl, rfl, rfl⟩
    · exact hd.unmarked m t x hold hmem
    · exact horderly haccepts
  · intro m t x hx hmem
    rw [honce] at hmem
    rw [hcalls, hlabels]
    rcases hheld m t x hx with hold | ⟨-, -, -, rfl⟩
    · exact hd.running m t x hold hmem
    · exact absurd hmem hnew
  · intro m t x hx hmem
    rw [honce] at hmem
    rw [hlabels]
    rcases hheld m t x hx with hold | ⟨-, -, -, rfl⟩
    · exact hd.topic m t x hold hmem
    · exact absurd hmem hnew
  · rw [World.AtMostOneEmit, honce, hcalls]
    exact hd.single

section
variable {this : ModuleId} {event : EventName} {callback : Int} {identifier : Identifier}

/-- A `connectOnce` that is refused changes nothing. -/
theorem World.Kept.connectOnce_refused (h : w.Kept)
    (hrefused : ¬ w.registry.Accepts this ⟨event, identifier⟩)
    (hregistry : w'.registry = (w.registry.connectOnce this event callback identifier).2)
    (honce : w'.once = w.once) (hcalls : w'.calls = w.calls) (hlabels : w'.labels = w.labels) :
    w'.Disciplined := by
  let op : Op := .connectOnce this event callback identifier
  have hconnected : ¬ (w.registry.connect this event callback identifier).1 = true :=
    fun htrue => hrefused ((w.registry.connect_fst this event callback identifier).mp htrue)
  apply h.disciplined.subtract _ _ _ honce hcalls hlabels
  · rw [hregistry]
    exact serial_le_apply op w.registry
  · intro m t x hx
    rw [hregistry] at hx
    rcases Registry.mem_of_store op h.numbered.tidy rfl hx with hold | ⟨haccepted, -⟩
    · exact hold
    · exact absurd haccepted hrefused
  · intro m t c
    rw [hregistry, w.registry.marked_connectOnce this event callback identifier m t c]
    exact or_iff_left fun hnew => hconnected hnew.1

/-- A `connectOnce` that is accepted is new to everything that is kept. -/
theorem World.Kept.connectOnce_accepted (h : w.Kept)
    (hfresh : w.taken.count callback ≤ w.registry.released.count callback)
    (haccepted : w.registry.Accepts this ⟨event, identifier⟩)
    (hregistry : w'.registry = (w.registry.connectOnce this event callback identifier).2)
    (honce : w'.once = w.registry.serial :: w.once) (hcalls : w'.calls = w.calls)
    (hlabels : w'.labels = w.labels) : w'.Disciplined := by
  have hd := h.disciplined
  let op : Op := .connectOnce this event callback identifier
  have hconnected := (w.registry.connect_fst this event callback identifier).mpr haccepted
  have hmarks := w.registry.marked_connectOnce this event callback identifier
  have hserial : w.registry.serial ≤ w'.registry.serial := by
    rw [hregistry]
    exact serial_le_apply op w.registry
  have hheld : ∀ m t x, x ∈ w'.registry.registrations t m →
      x ∈ w.registry.registrations t m ∨
        w.registry.Accepts this ⟨event, identifier⟩ ∧ m = this ∧
          t = ⟨event, identifier⟩ ∧
          x = ⟨callback, w.registry.serial⟩ := by
    intro m t x hx
    rw [hregistry] at hx
    exact Registry.mem_of_store op h.numbered.tidy rfl hx
  have hnew : w.registry.serial ∉ w.once :=
    fun hmem => absurd (hd.older _ hmem) (Nat.lt_irrefl _)
  have hnever : ∀ k, (k, w.registry.serial) ∉ w.calls :=
    fun k hk => absurd (h.numbered.calls _ hk) (Nat.lt_irrefl _)
  have hold_once : ∀ m t x, x ∈ w.registry.registrations t m →
      (x.serial ∈ w'.once ↔ x.serial ∈ w.once) := by
    intro m t x hx
    rw [honce, List.mem_cons]
    exact or_iff_right (Nat.ne_of_lt (h.numbered.lt hx))
  have hnothing : ¬ w.registry.ledger.Holds callback :=
    (Ledger.Accounts.take h.booked.accounts hfresh).2.2
  constructor
  · rw [honce]
    intro serial hmem
    rcases List.mem_cons.mp hmem with rfl | hmem
    · have hledger := Op.ledger op h.numbered.tidy
      have hentry : op.entry w.registry = .add this ⟨event, identifier⟩ callback :=
        if_pos haccepted
      rw [hentry] at hledger
      have hnext : (op.apply w.registry).serial = w.registry.serial + 1 :=
        congrArg Ledger.serial hledger
      rw [hregistry]
      exact Nat.lt_of_lt_of_eq (Nat.lt_succ_self _) hnext.symm
    · exact Nat.lt_of_lt_of_le (hd.older serial hmem) hserial
  · intro m t x hx hmem
    rw [hregistry, hmarks]
    rcases hheld m t x hx with hold | ⟨-, rfl, rfl, rfl⟩
    · exact Or.inl (hd.marked m t x hold ((hold_once m t x hold).mp hmem))
    · refine Or.inr ⟨hconnected, rfl, ?_⟩
      unfold SharesMark
      split
      · rename_i hplain
        exact ⟨hplain, rfl⟩
      · rfl
  · intro m t x hx hmem
    rw [hregistry, hmarks]
    rcases hheld m t x hx with hold | ⟨-, rfl, rfl, rfl⟩
    · rintro (hmarked | ⟨-, rfl, hshares⟩)
      · exact hd.unmarked m t x hold (fun h' => hmem ((hold_once m t x hold).mpr h')) hmarked
      · -- the reference is fresh, and the identifier was free
        unfold SharesMark at hshares
        split at hshares
        · exact hnothing ⟨m, t, x, hold, hshares.2⟩
        · rename_i hidentifier
          rw [hshares] at hold
          rcases haccepted with hplain | hfree
          · exact hidentifier hplain
          · rw [hfree] at hold
            cases hold
    · rw [honce] at hmem
      exact absurd List.mem_cons_self hmem
  · intro m t x hx hmem k hk
    rw [hlabels]
    rw [hcalls] at hk
    rcases hheld m t x hx with hold | ⟨-, rfl, rfl, rfl⟩
    · exact hd.running m t x hold ((hold_once m t x hold).mp hmem) k hk
    · exact absurd hk (hnever k)
  · intro m t x hx hmem label hlabel heq
    rw [hlabels] at hlabel
    rcases hheld m t x hx with hold | ⟨-, rfl, rfl, rfl⟩
    · exact hd.topic m t x hold ((hold_once m t x hold).mp hmem) label hlabel heq
    · obtain ⟨g, hg, rfl⟩ := List.mem_map.mp hlabel
      exact absurd (h.numbered.running g hg _ heq) (Nat.lt_irrefl _)
  · rw [World.AtMostOneEmit, honce, hcalls]
    intro serial hmem k k' hk hk'
    rcases List.mem_cons.mp hmem with rfl | hmem
    · exact absurd hk (hnever k)
    · exact hd.single serial hmem k k' hk hk'

/-- `connectOnce` of a module. -/
theorem World.Kept.connectOnce (h : w.Kept)
    (hfresh : w.taken.count callback ≤ w.registry.released.count callback)
    (hregistry : w'.registry = (w.registry.connectOnce this event callback identifier).2)
    (honce : w'.once = if (w.registry.connect this event callback identifier).1 then
      w.registry.serial :: w.once else w.once)
    (hcalls : w'.calls = w.calls) (hlabels : w'.labels = w.labels) : w'.Disciplined := by
  have haccepts := w.registry.connect_fst this event callback identifier
  by_cases haccepted : w.registry.Accepts this ⟨event, identifier⟩
  · rw [if_pos (haccepts.mpr haccepted)] at honce
    exact h.connectOnce_accepted hfresh haccepted hregistry honce hcalls hlabels
  · rw [if_neg (fun htrue => haccepted (haccepts.mp htrue))] at honce
    exact h.connectOnce_refused haccepted hregistry honce hcalls hlabels

end

theorem Registry.marked_congr {reg : Registry} {m : ModuleId} {t t' : Topic} {c c' : Int}
    (h : SharesMark t c t' c') : reg.Marked m t' c' ↔ reg.Marked m t c := by
  unfold SharesMark at h
  unfold Registry.Marked
  split at h
  · rename_i hplain
    rw [if_pos h.1, if_pos hplain, h.2]
  · rename_i hidentifier
    rw [h, if_neg hidentifier, if_neg hidentifier]

/-- A registration of `connectOnce` that shares its note with the callback that
returned is stored where the callback was called from. -/
theorem World.OwnReference.eq_of_sharesMark {t t' : Topic} {module : ModuleId}
    {r x : Registration} (h : t.identifier = [] → w.OwnReference module t.event r.callback)
    (hx : x ∈ w.registry.registrations t' module) (honce : x.serial ∈ w.once)
    (hshares : SharesMark t r.callback t' x.callback) :
    t' = t ∧ (t.identifier = [] → x.callback = r.callback) := by
  unfold SharesMark at hshares
  split at hshares
  · rename_i hplain
    obtain ⟨e, identifier⟩ := t'
    obtain ⟨hidentifier, hcallback⟩ := hshares
    dsimp only at hidentifier
    subst hidentifier
    have hkey : e ∈ (w.registry.module module).eventCallbacks.keys := by
      rw [← AList.mem_keys, ← AList.lookup_isSome, Option.isSome_iff_ne_none]
      intro hnone
      rw [Registry.registrations_nil, hnone] at hx
      cases hx
    have he := h hplain e hkey x hx honce hcallback
    refine ⟨?_, fun _ => hcallback⟩
    rw [he, ← hplain]
  · rename_i hidentifier
    exact ⟨hshares, fun hplain => absurd hplain hidentifier⟩

/-- A callback returns. -/
theorem World.Kept.returned (h : w.Kept) (horderly : w.ChecksOwn) {f : EmitFrame}
    {frames : List EmitFrame} (hframes : w.frames = f :: frames) {r : Registration}
    (hr : f.running = some r) {module : ModuleId}
    (hmodule : f.modules.read (f.entered - 1) = some module)
    (hregistry : w'.registry = (onceCheck f.topic module r).apply w.registry)
    (honce : w'.once = w.once) (hcalls : w'.calls = w.calls)
    (hlabels : w'.labels = (f.topic, f.number, none) :: frames.map EmitFrame.label) :
    w'.Disciplined := by
  have hd := h.disciplined
  obtain ⟨hown, hother⟩ := horderly f (by rw [hframes]; rfl) r hr module hmodule
  have hold : w.labels = (f.topic, f.number, some r) :: frames.map EmitFrame.label := by
    rw [World.labels, hframes, List.map_cons, EmitFrame.label, hr]
  have hheld :
      ∀ m t x, x ∈ w'.registry.registrations t m ↔ x ∈ w.registry.registrations t m ∧
      ¬ (m = module ∧ t = f.topic ∧ w.registry.Marked module f.topic r.callback ∧
        (f.topic.identifier = [] → x.callback = r.callback)) := by
    intro m t x
    rw [hregistry]
    exact mem_onceCheck h.numbered.tidy
  have hmarks : ∀ m t c, w'.registry.Marked m t c → w.registry.Marked m t c := by
    intro m t c hmarked
    rw [hregistry] at hmarked
    exact (marked_onceCheck m t c).1 hmarked
  constructor
  · intro serial hmem
    rw [honce] at hmem
    rw [hregistry]
    exact Nat.lt_of_lt_of_le (hd.older serial hmem) (serial_le_apply _ w.registry)
  · intro m t x hx hmem
    rw [honce] at hmem
    obtain ⟨hstored, hnot⟩ := (hheld m t x).mp hx
    have hmarked := hd.marked m t x hstored hmem
    rw [hregistry]
    -- the note that was used up is another's
    apply (marked_onceCheck m t x.callback).2 hmarked
    rintro ⟨rfl, hshares⟩
    have hchecked := (Registry.marked_congr hshares).mp hmarked
    obtain ⟨htopic, hcallback⟩ :=
      World.OwnReference.eq_of_sharesMark hother hstored hmem hshares
    exact hnot ⟨rfl, htopic, hchecked, hcallback⟩
  · intro m t x hx hmem hmarked
    rw [honce] at hmem
    exact hd.unmarked m t x ((hheld m t x).mp hx).1 hmem (hmarks m t _ hmarked)
  · intro m t x hx hmem k hk
    rw [honce] at hmem
    rw [hcalls] at hk
    obtain ⟨hstored, hnot⟩ := (hheld m t x).mp hx
    obtain ⟨label, hlabel, heq⟩ := hd.running m t x hstored hmem k hk
    rw [hold] at hlabel
    rcases List.mem_cons.mp hlabel with rfl | hlabel
    · -- the callback that returned is not stored any more
      exfalso
      obtain rfl : r = x := Option.some.inj (congrArg Prod.snd heq)
      have htopic : f.topic = t :=
        hd.topic m t r hstored hmem (f.topic, f.number, some r)
          (by rw [hold]; exact List.mem_cons_self) rfl
      subst htopic
      obtain rfl := hown hmem m (mem_listeners h.numbered hstored) hstored
      exact hnot ⟨rfl, rfl, hd.marked m f.topic r hstored hmem, fun _ => rfl⟩
    · refine ⟨label, ?_, heq⟩
      rw [hlabels]
      exact List.mem_cons_of_mem _ hlabel
  · intro m t x hx hmem label hlabel heq
    rw [honce] at hmem
    rw [hlabels] at hlabel
    rcases List.mem_cons.mp hlabel with rfl | hlabel
    · cases heq
    · apply hd.topic m t x ((hheld m t x).mp hx).1 hmem label _ heq
      rw [hold]
      exact List.mem_cons_of_mem _ hlabel
  · rw [World.AtMostOneEmit, honce, hcalls]
    exact hd.single

/-- What `checkConnectOnce` disconnects was made by `connectOnce`. -/
theorem World.Disciplined.mem_onceCheck (h : w.Disciplined) (htidy : w.registry.Tidy)
    {t t' : Topic} {module m : ModuleId} {r x : Registration}
    (hx : x ∈ w.registry.registrations t' m) (honce : x.serial ∉ w.once) :
    x ∈ ((onceCheck t module r).apply w.registry).registrations t' m := by
  rw [LoginServer.Core.mem_onceCheck htidy]
  refine ⟨hx, ?_⟩
  rintro ⟨rfl, rfl, hmarked, hcallback⟩
  apply h.unmarked m t' x hx honce
  apply (Registry.marked_congr _).mpr hmarked
  unfold SharesMark
  split
  · rename_i hplain
    exact ⟨hplain, hcallback hplain⟩
  · rfl

/-- The innermost loop goes on. -/
theorem World.Kept.advance (h : w.Kept) {spare : Nat} {ops : List Op}
    (hops : Event.ops w (.advance spare) = some ops) (hidle : ¬ w.Idle)
    (horderly : (w.applyAll ops).CallsFresh)
    (hcontrol : Event.control (w.applyAll ops) (.advance spare) = some w') :
    w'.Disciplined := by
  have hsubtracts : ∀ op ∈ ops, op.Subtracts :=
    fun op hop => (Event.ops_subtract rfl hops op hop).1
  have hquiet := h.disciplined.subtractAll h.numbered.tidy hsubtracts
  have hnumbered := h.numbered.applyAll ops
  have hunique : ∀ m t m' t' x, x ∈ (w.applyAll ops).registry.registrations t m →
      x ∈ (w.applyAll ops).registry.registrations t' m' → t = t' := by
    intro m t m' t' x hx hx'
    rw [World.registry_applyAll] at hx hx'
    have hstores := fun op hop => (hsubtracts op hop).stores
    exact (h.booked.one_place (Registry.mem_of_mem_applyAll hstores h.numbered.tidy hx)
      (Registry.mem_of_mem_applyAll hstores h.numbered.tidy hx')).2
  rw [← (w.sameLoops_applyAll ops).idle_iff] at hidle
  generalize w.applyAll ops = v at *
  obtain ⟨f, frames, next, hframes, hnext, rfl⟩ := Event.control_advance hcontrol
  have hnone := running_of_not_idle hidle hframes
  cases next with
  | none =>
      apply hquiet.relabel
      · rfl
      · rfl
      · rfl
      · intro t k x
        simp [World.labels, hframes, EmitFrame.label, hnone]
  | some f' =>
      have hadvanced := EmitFrame.advance_eq hnone hnext
      cases hrunning : f'.running with
      | none =>
          apply hquiet.relabel
          · rfl
          · rfl
          · simp [hrunning]
          · intro t k x
            simp [World.labels, hframes, EmitFrame.label, hnone, hrunning]
      | some r =>
          have hupcoming : f.upcoming v.registry = some r :=
            hadvanced.running.symm.trans hrunning
          apply hquiet.call hnumbered hunique hframes hnone
          · intro hmem
            obtain ⟨⟨m, -, hr⟩, hothers⟩ :=
              horderly f (by rw [hframes]; rfl) r hupcoming hmem
            exact ⟨⟨m, hr⟩, hothers⟩
          · rfl
          · rfl
          · simp [hrunning]
          · simp [World.labels, EmitFrame.label, hadvanced.topic, hadvanced.number, hrunning]

/-- What one event of an orderly history preserves. -/
theorem step_disciplined {event : Event} (h : w.Kept) (hfresh : event.Referenced w)
    (horderly : event.Orderly w) (hstep : step event w = some w') : w'.Disciplined := by
  obtain ⟨hpossible, ops, hops, hcontrol⟩ := step_eq_some hstep
  obtain ⟨hlabels, hcalls, hsame⟩ := event.sameLoops w ops
  have hregistry := Event.registry_of_control hcontrol
  have honce := (step_records hstep).2
  have hsubtract : event.subtracts = true → (w.applyAll ops).Disciplined := by
    intro hevent
    exact h.disciplined.subtractAll h.numbered.tidy
      fun op hop => (Event.ops_subtract hevent hops op hop).1
  cases event with
  | connect this event callback identifier =>
      cases hcontrol
      cases this with
      | none =>
          cases hops
          exact h.disciplined.subtract (Nat.le_refl _) (fun _ _ _ hx => hx)
            (fun _ _ _ => Iff.rfl) rfl rfl rfl
      | some this =>
          cases hops
          exact h.connect horderly hregistry honce (hsame.calls.trans hcalls)
            (hsame.labels.trans hlabels)
  | connectOnce this event callback identifier =>
      cases hcontrol
      cases hops
      exact h.connectOnce hfresh hregistry honce (hsame.calls.trans hcalls)
        (hsame.labels.trans hlabels)
  | emit t spare =>
      cases hcontrol
      apply (hsubtract rfl).relabel
      · rfl
      · rfl
      · rfl
      · intro t' k x
        unfold World.labels
        dsimp only
        split
        · rfl
        · rw [List.map_cons, List.mem_cons]
          exact or_iff_right fun heq => nomatch congrArg (fun label => label.2.2) heq
  | advance spare => exact h.advance hops hpossible (horderly ops hops) hcontrol
  | returned =>
      obtain ⟨f, frames, r, module, hframes, hr, hmodule, rfl⟩ := Event.ops_returned hops
      have hafter : ((Event.record w .returned).applyAll [onceCheck f.topic module r]).frames =
          (f :: frames).map fun g => g.follow ((onceCheck f.topic module r).apply w.registry) := by
        rw [← hframes]
        rfl
      obtain ⟨f', frames', hframes', rfl⟩ := Event.control_returned hcontrol
      rw [hafter, List.map_cons] at hframes'
      cases hframes'
      apply h.returned horderly hframes hr hmodule
      · rfl
      · rfl
      · rfl
      · simp only [World.labels, List.map_cons, List.map_map]
        rfl
  | _ =>
      cases hcontrol
      exact hsubtract rfl

/-- What one event takes out, it names, unless `checkConnectOnce` does. -/
theorem World.Kept.keeps (h : w.Kept) (event : Event) : event.Keeps w := by
  intro w' hstep m t r hr honce
  obtain ⟨ops, hops, hregistry⟩ := step_registry hstep
  rw [hregistry]
  by_cases hevent : event.subtracts = true
  · have hsubtract := Event.ops_subtract hevent hops
    have hchecking := fun op hop => (hsubtract op hop).1.checking
    apply (Registry.mem_applyAll_or hchecking h.numbered.tidy hr).imp_right
    rintro ⟨op, hop, hnames⟩
    exact (hsubtract op hop).2 m t r hnames
  · apply Or.inl
    cases event with
    | connect this event callback identifier =>
        cases this with
        | none => exact absurd rfl hevent
        | some this =>
            cases hops
            let op : Op := .connect this event callback identifier
            exact (op.mem_or_names rfl h.numbered.tidy hr).resolve_right id
    | connectOnce this event callback identifier =>
        cases hops
        let op : Op := .connectOnce this event callback identifier
        exact (op.mem_or_names rfl h.numbered.tidy hr).resolve_right id
    | returned =>
        obtain ⟨f, frames, r', module, -, -, -, rfl⟩ := Event.ops_returned hops
        exact h.disciplined.mem_onceCheck h.numbered.tidy hr honce
    | _ => exact absurd rfl hevent

theorem step_kept {event : Event} (h : w.Kept) (hfresh : event.Referenced w)
    (horderly : event.Orderly w) (hstep : step event w = some w') : w'.Kept := by
  constructor
  · exact step_numbered h.numbered hstep
  · exact (step_settled_iff h.booked hfresh hstep).1
  · exact step_disciplined h hfresh horderly hstep

end

theorem kept_empty : World.Kept {} := ⟨numbered_empty, booked_empty, disciplined_empty⟩

/-- In every orderly history a registration of `connectOnce` is called by one
emit at most, and one of `connect` stays until an event names it. -/
theorem once_means_once (events : List Event) (w : World)
    (hfresh : PartialRun.Obeys step (fun event w => event.Referenced w) events {})
    (horderly : PartialRun.Obeys step (fun event w => event.Orderly w) events {})
    (h : history events {} = some w) :
    w.AtMostOneEmit ∧ PartialRun.Obeys step (fun event w => event.Keeps w) events {} := by
  have hboth := hfresh.and horderly
  constructor
  · exact (PartialRun.run_preserves_of
      (fun _ _ _ hs hP hstep => step_kept hs hP.1 hP.2 hstep)
      events {} w kept_empty hboth h).disciplined.single
  · exact PartialRun.obeys_of_invariant
      (fun _ _ _ hs hP hstep => step_kept hs hP.1 hP.2 hstep)
      (fun event _ hs _ => hs.keeps event) kept_empty hboth

/-- Two emits of an event with a callback for one emit and one for all. -/
def onceAndAgain : List Event :=
  [.connectOnce 0 [1] 7 [], .connect (some 0) [1] 8 [], .emit ⟨[1], []⟩ 0, .advance 0,
    .advance 0, .returned, .advance 0, .returned, .advance 0, .emit ⟨[1], []⟩ 0, .advance 0,
    .advance 0, .returned, .advance 0, .disconnect 0 [1] 8 true]

theorem once_means_once_sample :
    ∃ w, history onceAndAgain {} = some w ∧ w.AtMostOneEmit ∧
      PartialRun.Obeys step (fun event w => event.Keeps w) onceAndAgain {} := by
  have hruns : (history onceAndAgain {}).isSome := by decide +kernel
  have h := (Option.some_get hruns).symm
  exact ⟨_, h, once_means_once _ _ (by decide +kernel) (by decide +kernel) h⟩

/-- An identifier is used for one emit, disconnected, and used for all. -/
def identifierReused : List Event :=
  [.connectOnce 0 [1] 7 [2], .disconnectIdentified 0 [1] [2] true, .connect (some 0) [1] 7 [2],
    .emit ⟨[1], [2]⟩ 0, .advance 0]

/-- The first emit disconnects the connection that was made to stay. -/
theorem reused_identifier_disconnects :
    ∃ w, history (identifierReused ++ [.returned]) {} = some w ∧
      PartialRun.Obeys step (fun event w => event.Referenced w)
        (identifierReused ++ [.returned]) {} ∧
      ¬ (w.AtMostOneEmit ∧
        PartialRun.Obeys step (fun event w => event.Keeps w)
          (identifierReused ++ [.returned]) {}) := by
  have hgone : ∀ u ∈ history identifierReused {}, ∀ v ∈ step .returned u,
      ⟨7, 1⟩ ∈ u.registry.registrations ⟨[1], [2]⟩ 0 ∧ 1 ∉ u.once ∧
        (⟨7, 1⟩ : Registration) ∉ v.registry.registrations ⟨[1], [2]⟩ 0 := by
    decide +kernel
  have hruns : (history (identifierReused ++ [.returned]) {}).isSome := by decide +kernel
  obtain ⟨w, hw⟩ := Option.isSome_iff_exists.mp hruns
  refine ⟨w, hw, by decide +kernel, fun hboth => ?_⟩
  rw [history, PartialRun.run_append] at hw
  obtain ⟨u, hu, hlast⟩ := Option.bind_eq_some_iff.mp hw
  obtain ⟨v, hv, -⟩ := PartialRun.run_cons_eq_some hlast
  obtain ⟨hstored, honce, hnot⟩ := hgone u hu v hv
  have hkeeps : Event.Keeps u .returned := (hboth.2.append_right hu).1
  rcases hkeeps v hv 0 ⟨[1], [2]⟩ ⟨7, 1⟩ hstored honce with hkept | hnamed
  · exact hnot hkept
  · exact hnamed

end LoginServer.Core
