import LoginServer.Core.CallNumbers
import LoginServer.Core.References
import LoginServer.Script.Relay

/-!
# The closure that `module:connect` returns

`luaModuleConnect` returns a closure that is to take the new subscription out
again.  The closure keeps the module and points to two userdata with the event
and the identifier, and calls the `disconnect` for identifiers: without an
identifier there is nothing for it to find, and with one it takes out whatever
is connected under the two names by then.  The two userdata are returned as
well, and nothing but the script holds them.

## Main results

* `Traced.applyAll` — where a registration can be after any history.
* `call_removes_iff` — what the closure takes out.
* `disconnect_closure_iff` — the histories after which it undoes its `connect`.
-/

namespace LoginServer.Script

open LoginServer.Core
open LoginServer.Network (Bytes)

/-- The fourth argument of `module:connect`. -/
inductive LuaIdentifier where
  | absent
  | string (s : Bytes)
  /-- as `int`, for `std::to_string` -/
  | number (n : Int)
  deriving DecidableEq

/-- What `luaModuleConnect` takes it for; a string ends at its first zero byte,
so that one which begins with it is no identifier. -/
def LuaIdentifier.toIdentifier : LuaIdentifier → Identifier
  | .absent => []
  | .string s => LuaStack.popString s
  | .number n => (toString n).toUTF8.toList

/-- The upvalues of `disconnect`, behind the pointers. -/
structure DisconnectClosure where
  module : ModuleId
  event : EventName
  identifier : Identifier
  deriving DecidableEq

/-- `luaModuleConnect`; no closure stands for the result `false`. -/
def luaModuleConnect (reg : Registry) (module : Option ModuleId) (event : Bytes)
    (callback : Int) (identifier : LuaIdentifier) : Option DisconnectClosure × Registry :=
  match module with
  | none => (none, reg)
  | some this =>
      let event : EventName := LuaStack.popString event
      match reg.connect this event callback identifier.toIdentifier with
      | (false, reg) => (none, reg)
      | (true, reg) => (some ⟨this, event, identifier.toIdentifier⟩, reg)

namespace DisconnectClosure

/-- `disconnect`; when one of the userdata has been collected, the pointers
lead nowhere. -/
def call (closure : DisconnectClosure) (collected : Bool) (reg : Registry) : Option Registry :=
  if collected then none
  else some (reg.disconnectIdentified closure.module closure.event closure.identifier true)

def topic (closure : DisconnectClosure) : Topic := ⟨closure.event, closure.identifier⟩

/-- The registration with this number is taken out wherever it is, and no
other one. -/
def RemovesExactly (serial : Nat) (reg : Registry) : Option Registry → Prop
  | none => False
  | some reg' => ∀ m t, reg'.registrations t m =
      (reg.registrations t m).filter fun r => r.serial ≠ serial

/-- Without an identifier the registration is gone already; with one, nothing
else has its place. -/
def Fits (closure : DisconnectClosure) (serial : Nat) (reg : Registry) : Prop :=
  if closure.identifier = [] then
    ∀ r ∈ reg.registrations closure.topic closure.module, r.serial ≠ serial
  else ∀ r ∈ reg.registrations closure.topic closure.module, r.serial = serial

instance (closure : DisconnectClosure) (serial : Nat) (reg : Registry) :
    Decidable (closure.Fits serial reg) :=
  inferInstanceAs (Decidable (if closure.identifier = [] then _ else _))

/-! ## Where a registration can be -/

/-- The number has been given out, for this place only. -/
structure Traced (closure : DisconnectClosure) (serial : Nat) (reg : Registry) : Prop where
  tidy : reg.Tidy
  used : serial < reg.serial
  place : ∀ m t, ∀ r ∈ reg.registrations t m, r.serial = serial →
    m = closure.module ∧ t = closure.topic

theorem Traced.apply {closure : DisconnectClosure} {serial : Nat} {reg : Registry}
    (h : closure.Traced serial reg) (op : Op) : closure.Traced serial (op.apply reg) where
  tidy := op.tidy h.tidy
  used := Nat.lt_of_lt_of_le h.used (serial_le_apply op reg)
  place := by
    intro m t r hr hserial
    rw [op.registrations_apply h.tidy] at hr
    rcases Ledger.mem_of_post hr with hold | ⟨-, hnew⟩
    · exact h.place m t r hold hserial
    · have hlt : serial < r.serial := hnew ▸ h.used
      omega

theorem Traced.applyAll {closure : DisconnectClosure} {serial : Nat} (ops : List Op) :
    ∀ {reg : Registry}, closure.Traced serial reg →
      closure.Traced serial (reg.applyAll ops) := by
  induction ops with
  | nil => exact id
  | cons op ops ih => exact fun h => ih (h.apply op)

/-- What `luaModuleConnect` returns a closure for. -/
theorem connect_of_closure {reg : Registry} {module : Option ModuleId} {event : Bytes}
    {callback : Int} {identifier : LuaIdentifier} {closure : DisconnectClosure}
    (h : (luaModuleConnect reg module event callback identifier).1 = some closure) :
    reg.Accepts closure.module closure.topic ∧
      (luaModuleConnect reg module event callback identifier).2 =
        (Op.connect closure.module closure.event callback closure.identifier).apply reg := by
  unfold luaModuleConnect at h ⊢
  cases module with
  | none => cases h
  | some this =>
      have haccepts := reg.connect_fst this (LuaStack.popString event) callback
        identifier.toIdentifier
      dsimp only at h ⊢
      split at h
      · cases h
      · rename_i hconnect
        cases h
        rw [hconnect] at haccepts
        refine ⟨haccepts.mp rfl, ?_⟩
        rw [Op.apply, hconnect]

/-- Right after its `connect`, the registration is where the closure looks. -/
theorem traced_connect {reg : Registry} (hreg : Reachable reg) {module : Option ModuleId}
    {event : Bytes} {callback : Int} {identifier : LuaIdentifier}
    {closure : DisconnectClosure}
    (h : (luaModuleConnect reg module event callback identifier).1 = some closure) :
    closure.Traced reg.serial (luaModuleConnect reg module event callback identifier).2 := by
  obtain ⟨haccepts, hconnect⟩ := connect_of_closure h
  have htidy : reg.Tidy := hreg.tidy
  have hledger : ((Op.connect closure.module closure.event callback
      closure.identifier).apply reg).ledger =
        (Entry.add closure.module closure.topic callback).post reg.ledger := by
    rw [Op.ledger _ htidy, Op.entry]
    exact congrArg (Entry.post reg.ledger) (if_pos haccepts)
  rw [hconnect]
  constructor
  · exact Op.tidy _ htidy
  · have hserial := congrArg Ledger.serial hledger
    exact Nat.lt_of_lt_of_eq (Nat.lt_succ_self reg.serial) hserial.symm
  · intro m t r hr hserial
    have hr' : r ∈ ((Entry.add closure.module closure.topic callback).post reg.ledger).held m t :=
      congrArg Ledger.held hledger ▸ hr
    rcases Ledger.mem_held_add.mp hr' with hold | ⟨hm, ht, -⟩
    · have hbound := (wellFormed_of_reachable hreg t).bound m r hold
      exact absurd (hserial ▸ hbound) (Nat.lt_irrefl _)
    · exact ⟨hm, ht⟩

/-! ## What the closure takes out -/

section
variable {closure : DisconnectClosure} {serial : Nat} {reg : Registry}

/-- The closure empties its place, if it has an identifier, and leaves every
other one alone. -/
theorem registrations_call (m : ModuleId) (t : Topic) :
    (reg.disconnectIdentified closure.module closure.event closure.identifier
        true).registrations t m =
      if closure.identifier ≠ [] ∧ m = closure.module ∧ t = closure.topic then []
      else reg.registrations t m := by
  have hstep := reg.identifiedStep_disconnectIdentified closure.module closure.event
    closure.identifier true
  by_cases hevent : m = closure.module ∧ t.event = closure.event ∧ t.identifier ≠ []
  · obtain ⟨e, i⟩ := t
    obtain ⟨rfl, rfl, hi⟩ := hevent
    rw [Registry.registrations_of_ne _ hi, Registry.registrations_of_ne _ hi]
    show ((Registry.eventMap _ closure.module closure.event).lookup i).toList = _
    rw [Registry.eventMap_disconnectIdentified, if_pos ⟨rfl, rfl⟩]
    by_cases hsame : i = closure.identifier
    · subst hsame
      rw [AList.lookup_erase, if_pos ⟨hi, rfl, rfl⟩]
      rfl
    · rw [AList.lookup_erase_ne hsame, if_neg (fun hall => hsame (Topic.mk.inj hall.2.2).2)]
      rfl
  · rw [hstep.registrations hevent, if_neg]
    rintro ⟨hne, rfl, rfl⟩
    exact hevent ⟨rfl, rfl, hne⟩

/-- Taking out one registration and no other, by what is held at the place. -/
theorem call_removes_iff (h : closure.Traced serial reg) :
    RemovesExactly serial reg (closure.call false reg) ↔ closure.Fits serial reg := by
  have hcall : closure.call false reg = some (reg.disconnectIdentified closure.module
    closure.event closure.identifier true) := rfl
  rw [hcall, RemovesExactly]
  have helsewhere : ∀ m t, ¬ (m = closure.module ∧ t = closure.topic) →
      (reg.registrations t m).filter (fun r => r.serial ≠ serial) = reg.registrations t m := by
    intro m t hplace
    refine List.filter_eq_self.mpr fun r hr => ?_
    simp only [ne_eq, decide_not, Bool.not_eq_true', decide_eq_false_iff_not]
    exact fun hserial => hplace (h.place m t r hr hserial)
  unfold Fits
  by_cases hidentifier : closure.identifier = []
  · rw [if_pos hidentifier]
    have hsame : ∀ m t, (reg.disconnectIdentified closure.module closure.event
        closure.identifier true).registrations t m = reg.registrations t m :=
      fun m t => (registrations_call m t).trans (if_neg fun hboth => hboth.1 hidentifier)
    constructor
    · intro hall r hr hserial
      have hmem := hr
      rw [← hsame, hall] at hmem
      simp [hserial] at hmem
    · intro hnone m t
      rw [hsame]
      by_cases hplace : m = closure.module ∧ t = closure.topic
      · rw [hplace.1, hplace.2]
        refine (List.filter_eq_self.mpr fun r hr => ?_).symm
        simpa using hnone r hr
      · exact (helsewhere m t hplace).symm
  · rw [if_neg hidentifier]
    constructor
    · intro hall r hr
      have hnil := hall closure.module closure.topic
      rw [registrations_call, if_pos ⟨hidentifier, rfl, rfl⟩] at hnil
      by_contra hserial
      have hmem : r ∈ (reg.registrations closure.topic closure.module).filter
          (fun r => r.serial ≠ serial) := List.mem_filter.mpr ⟨hr, by simpa using hserial⟩
      rw [← hnil] at hmem
      cases hmem
    · intro hsame m t
      rw [registrations_call]
      by_cases hplace : m = closure.module ∧ t = closure.topic
      · rw [if_pos ⟨hidentifier, hplace⟩, hplace.1, hplace.2]
        refine (List.filter_eq_nil_iff.mpr fun r hr => ?_).symm
        simpa using hsame r hr
      · rw [if_neg (fun hboth => hplace hboth.2)]
        exact (helsewhere m t hplace).symm

end

/-- After any history, the closure undoes its `connect` and nothing else if and
only if its userdata still exist and, without an identifier, the registration
is gone anyway, or, with one, nothing else has taken its place. -/
theorem disconnect_closure_iff (reg : Registry) (hreg : Reachable reg)
    (module : Option ModuleId) (event : Bytes) (callback : Int)
    (identifier : LuaIdentifier) (closure : DisconnectClosure)
    (h : (luaModuleConnect reg module event callback identifier).1 = some closure)
    (ops : List Op) (collected : Bool) :
    RemovesExactly reg.serial
        ((luaModuleConnect reg module event callback identifier).2.applyAll ops)
        (closure.call collected
          ((luaModuleConnect reg module event callback identifier).2.applyAll ops)) ↔
      collected = false ∧
        closure.Fits reg.serial
          ((luaModuleConnect reg module event callback identifier).2.applyAll ops) := by
  have htraced := (traced_connect hreg h).applyAll ops
  cases collected with
  | true => exact iff_of_false id nofun
  | false => rw [call_removes_iff htraced, and_iff_right rfl]

/-- With an identifier, while another module connects too. -/
theorem disconnect_closure_sample :
    RemovesExactly 0
      ((luaModuleConnect {} (some 1) [120] 7 (.string [105])).2.applyAll
        [.connect 2 [120] 8 [105]])
      (DisconnectClosure.call ⟨1, [120], [105]⟩ false
        ((luaModuleConnect {} (some 1) [120] 7 (.string [105])).2.applyAll
          [.connect 2 [120] 8 [105]])) := by
  have hclosure : (luaModuleConnect {} (some 1) [120] 7 (.string [105])).1 =
      some ⟨1, [120], [105]⟩ := by
    decide +kernel
  exact (disconnect_closure_iff {} ⟨[], rfl⟩ (some 1) [120] 7 (.string [105]) _ hclosure _
    false).mpr (by decide +kernel)

/-- Without an identifier the closure takes out nothing. -/
theorem disconnect_closure_without_identifier :
    (luaModuleConnect {} (some 1) [120] 7 .absent).1 = some ⟨1, [120], []⟩ ∧
      (DisconnectClosure.call ⟨1, [120], []⟩ false
        (luaModuleConnect {} (some 1) [120] 7 .absent).2).map
          (fun reg => reg.registrations ⟨[120], []⟩ 1) = some [⟨7, 0⟩] ∧
      ¬ RemovesExactly 0 (luaModuleConnect {} (some 1) [120] 7 .absent).2
        (DisconnectClosure.call ⟨1, [120], []⟩ false
          (luaModuleConnect {} (some 1) [120] 7 .absent).2) := by
  have hleft : (Registry.disconnectIdentified (luaModuleConnect {} (some 1) [120] 7 .absent).2 1
      [120] [] true).registrations ⟨[120], []⟩ 1 = [⟨7, 0⟩] := by
    decide +kernel
  have hgone : ((luaModuleConnect {} (some 1) [120] 7 .absent).2.registrations ⟨[120], []⟩
      1).filter (fun r => r.serial ≠ 0) = [] := by
    decide +kernel
  refine ⟨by decide +kernel, congrArg some hleft, fun hremoves => ?_⟩
  have hnone := hremoves 1 ⟨[120], []⟩
  rw [hgone, hleft] at hnone
  cases hnone

end DisconnectClosure

end LoginServer.Script
