import Mathlib.Algebra.Group.Int.Defs
import Mathlib.Algebra.GroupWithZero.Nat
import LoginServer.Verified.PartialRun
import LoginServer.Verified.UnorderedScan

/-!
# From a client to a number and back

`ConnectionManager` numbers the connections with 64 bits.  A script takes the
number of a client with `client:getId()`, keeps it across a request to the
central server and asks `g_login.getClient` for the client again.  On the way
out the number is cut to 32 bits, on the way back it passes through `int`.

A connection is named by how many had been created with it.

## Main results

* `popUInt64_pushUInt32` — what is left of a number.
* `routed_iff` — the connections that are found again.
* `numbered_run` — what the events keep.
-/

namespace LoginServer.Network

open LoginServer.Verified

/-- `LuaStack::Push<uint32_t>`; the double holds every such number. -/
def pushUInt32 (value : UInt32) : Int := value.toNat

/-- `LuaStack::Pop<uint64_t>`: a cast to `int`, which is undefined for a number
that is no `int`, and then one to `uint64_t`. -/
def popUInt64 (number : Int) : Option UInt64 :=
  if -2 ^ 31 ≤ number ∧ number < 2 ^ 31 then some (UInt64.ofInt number) else none

/-- `m_id` of a connection: the generator counts modulo `2 ^ 64`. -/
def connectionId (c : Nat) : UInt64 := UInt64.ofNat c

structure ConnectionManager where
  /-- how often `CONNECTION_ID_GENERATOR` was incremented -/
  created : Nat := 0
  /-- `m_connections`, in any order -/
  connections : List Nat := []
  /-- the connections that have an `m_protocol` -/
  accepted : List Nat := []

namespace ConnectionManager

/-- `m_protocol`, named like its connection. -/
def protocol (s : ConnectionManager) (c : Nat) : Option Nat :=
  if c ∈ s.accepted then some c else none

/-- `getProtocolById`, for one order of the hash set. -/
def getProtocolById (s : ConnectionManager) (order : List Nat) (id : UInt64) : Option Nat :=
  UnorderedScan.scan (fun c => connectionId c = id) s.protocol order

end ConnectionManager

/-- `Protocol::getId`; the connection may be gone. -/
def getId : Option Nat → UInt32
  | some c => (connectionId c).toUInt32
  | none => 0

/-- `client:getId()`. -/
def luaProtocolGetId (connection : Option Nat) : Int := pushUInt32 (getId connection)

/-- `g_login.getClient(id)`; `some none` is `nil`, and `none` is undefined. -/
def luaLoginGetClient (s : ConnectionManager) (order : List Nat) (number : Int) :
    Option (Option Nat) :=
  (popUInt64 number).map fun id => s.getProtocolById order id

/-! ## What is left of a number -/

theorem toNat_connectionId (c : Nat) : (connectionId c).toNat = c % 2 ^ 64 :=
  UInt64.toNat_ofNat'

theorem popUInt64_pushUInt32 (value : UInt32) :
    popUInt64 (pushUInt32 value) =
      if value.toNat < 2 ^ 31 then some (UInt64.ofNat value.toNat) else none := by
  unfold popUInt64 pushUInt32
  by_cases h : value.toNat < 2 ^ 31
  · have hsame : ((value.toNat : Int) % 2 ^ 64).toNat = value.toNat := by omega
    rw [if_pos h, if_pos (by omega), UInt64.ofInt, hsame]
  · rw [if_neg h, if_neg (by omega)]

/-- The id a connection comes back as. -/
theorem toNat_getId_some (c : Nat) : (getId (some c)).toNat = c % 2 ^ 64 % 2 ^ 32 := by
  show (connectionId c).toUInt32.toNat = _
  rw [UInt64.toNat_toUInt32, toNat_connectionId]

namespace ConnectionManager

/-- The numbers a script may have got from the protocol of a connection. -/
def Gives (s : ConnectionManager) (c : Nat) (number : Int) : Prop :=
  number = luaProtocolGetId (some c) ∨ (c ∉ s.connections ∧ number = luaProtocolGetId none)

/-- The client is found while it is connected, and nobody is afterwards. -/
def Routed (s : ConnectionManager) (c : Nat) : Prop :=
  ∀ order : List Nat, order.Perm s.connections → ∀ number, s.Gives c number →
    luaLoginGetClient s order number =
      some (if c ∈ s.connections then s.protocol c else none)

/-- The id of the connection is an `int`, and no other connection has it; of
a connection that is gone, what 32 bits hold of it is an `int`, and no client
has that, or zero. -/
def Direct (s : ConnectionManager) (c : Nat) : Prop :=
  if c ∈ s.connections then
    c % 2 ^ 64 < 2 ^ 31 ∧ ∀ d ∈ s.connections, d % 2 ^ 64 = c % 2 ^ 64 → d = c
  else
    c % 2 ^ 64 % 2 ^ 32 < 2 ^ 31 ∧ ∀ d ∈ s.connections, d ∈ s.accepted →
      d % 2 ^ 64 ≠ c % 2 ^ 64 % 2 ^ 32 ∧ d % 2 ^ 64 ≠ 0

section
variable {s : ConnectionManager} {c : Nat}

/-- What `getClient` answers in every order, for the number of an id. -/
theorem forall_getClient_iff (connection : Option Nat) (answer : Option Nat) :
    (∀ order : List Nat, order.Perm s.connections →
        luaLoginGetClient s order (luaProtocolGetId connection) = some answer) ↔
      (getId connection).toNat < 2 ^ 31 ∧
        ∀ order : List Nat, order.Perm s.connections →
          UnorderedScan.scan (fun d => d % 2 ^ 64 = (getId connection).toNat) s.protocol order =
            answer := by
  unfold luaLoginGetClient luaProtocolGetId getProtocolById
  rw [popUInt64_pushUInt32]
  by_cases h : (getId connection).toNat < 2 ^ 31
  · rw [if_pos h]
    have hsame : ∀ d, connectionId d = UInt64.ofNat (getId connection).toNat ↔
        d % 2 ^ 64 = (getId connection).toNat := by
      intro d
      rw [← UInt64.toNat_inj, toNat_connectionId, UInt64.toNat_ofNat']
      rw [Nat.mod_eq_of_lt (show (getId connection).toNat < 2 ^ 64 by omega)]
    simp only [hsame, Option.map_some, Option.some.injEq]
    exact (and_iff_right h).symm
  · rw [if_neg h]
    constructor
    · intro hall
      cases hall s.connections (List.Perm.refl _)
    · exact fun hboth => absurd hboth.1 h

theorem protocol_eq_some_iff {d : Nat} : s.protocol d = some c ↔ d ∈ s.accepted ∧ d = c := by
  unfold protocol
  split
  · rename_i hd
    simp [hd]
  · rename_i hd
    simp [hd]

theorem protocol_eq_none_iff {d : Nat} : s.protocol d = none ↔ d ∉ s.accepted := by
  unfold protocol
  split
  · rename_i hd
    simp [hd]
  · rename_i hd
    simp [hd]

theorem routed_connected_iff (hc : c ∈ s.accepted) (hconnected : c ∈ s.connections) :
    s.Routed c ↔ s.Direct c := by
  have hrouted : s.Routed c ↔ ∀ order : List Nat, order.Perm s.connections →
      luaLoginGetClient s order (luaProtocolGetId (some c)) = some (some c) := by
    unfold Routed Gives
    rw [if_pos hconnected, protocol_eq_some_iff.mpr ⟨hc, rfl⟩]
    simp [hconnected]
  rw [hrouted, forall_getClient_iff, toNat_getId_some, UnorderedScan.forall_scan_eq_some_iff,
    Direct, if_pos hconnected]
  simp only [decide_eq_true_eq, protocol_eq_some_iff]
  constructor
  · rintro ⟨hint, ⟨x, hx, hid⟩, hall⟩
    obtain rfl := (hall x hx hid).2
    constructor
    · omega
    · intro d hd hsame
      exact (hall d hd (hsame.trans hid)).2
  · rintro ⟨hint, hall⟩
    have hid : c % 2 ^ 64 = c % 2 ^ 64 % 2 ^ 32 := by omega
    refine ⟨by omega, ⟨c, hconnected, hid⟩, ?_⟩
    intro d hd hsame
    obtain rfl := hall d hd (hsame.trans hid.symm)
    exact ⟨hc, rfl⟩

theorem routed_released_iff (hreleased : c ∉ s.connections) : s.Routed c ↔ s.Direct c := by
  have hrouted : s.Routed c ↔
      (∀ order : List Nat, order.Perm s.connections →
        luaLoginGetClient s order (luaProtocolGetId (some c)) = some none) ∧
      ∀ order : List Nat, order.Perm s.connections →
        luaLoginGetClient s order (luaProtocolGetId none) = some none := by
    unfold Routed Gives
    rw [if_neg hreleased]
    constructor
    · intro h
      exact ⟨fun order hperm => h order hperm _ (Or.inl rfl),
        fun order hperm => h order hperm _ (Or.inr ⟨hreleased, rfl⟩)⟩
    · rintro ⟨hid, hzero⟩ order hperm number (rfl | ⟨-, rfl⟩)
      · exact hid order hperm
      · exact hzero order hperm
  have hzero : (getId none).toNat = 0 := rfl
  rw [hrouted, forall_getClient_iff, forall_getClient_iff, toNat_getId_some, hzero,
    UnorderedScan.forall_scan_eq_none_iff, UnorderedScan.forall_scan_eq_none_iff, Direct,
    if_neg hreleased]
  simp only [decide_eq_true_eq, protocol_eq_none_iff]
  constructor
  · rintro ⟨⟨hint, hid⟩, -, hnull⟩
    exact ⟨hint, fun d hd haccepted =>
      ⟨fun hsame => hid d hd hsame haccepted, fun hsame => hnull d hd hsame haccepted⟩⟩
  · rintro ⟨hint, hall⟩
    refine ⟨⟨hint, fun d hd hsame haccepted => (hall d hd haccepted).1 hsame⟩,
      by decide, ?_⟩
    exact fun d hd hsame haccepted => (hall d hd haccepted).2 hsame

/-- A client is found by its number as long as it is connected, and nobody is
found by it later, exactly if no other client is in the way and the number is
an `int`. -/
theorem routed_iff (s : ConnectionManager) (c : Nat) (hc : c ∈ s.accepted) :
    s.Routed c ↔ s.Direct c := by
  by_cases hconnected : c ∈ s.connections
  · exact routed_connected_iff hc hconnected
  · exact routed_released_iff hconnected

/-- The first of two clients has gone. -/
theorem routed_sample : ConnectionManager.Routed ⟨2, [2], [2, 1]⟩ 1 := by
  apply (routed_iff _ 1 (by decide)).mpr
  simp [Direct]

end

end ConnectionManager

/-! ## The states that are reached -/

inductive ConnectionEvent where
  /-- `createConnection`, for the next client -/
  | create
  /-- `Connection::accept`, which makes the protocol -/
  | accept (c : Nat)
  | release (c : Nat)
  | closeAll

namespace ConnectionManager

def step (event : ConnectionEvent) (s : ConnectionManager) : Option ConnectionManager :=
  match event with
  | .create =>
      let c := s.created + 1
      some { s with created := c, connections := s.connections ++ [c] }
  | .accept c => do
      guard (1 ≤ c ∧ c ≤ s.created ∧ c ∉ s.accepted)
      some { s with accepted := c :: s.accepted }
  | .release c => some { s with connections := s.connections.erase c }
  | .closeAll => some { s with connections := [] }

/-- The connections were created, and none is held twice. -/
structure Numbered (s : ConnectionManager) : Prop where
  connections : ∀ c ∈ s.connections, 1 ≤ c ∧ c ≤ s.created
  accepted : ∀ c ∈ s.accepted, 1 ≤ c ∧ c ≤ s.created
  nodup : s.connections.Nodup

theorem step_numbered {event : ConnectionEvent} {s s' : ConnectionManager} (h : s.Numbered)
    (hstep : step event s = some s') : s'.Numbered := by
  cases event with
  | create =>
      cases hstep
      constructor
      · intro c hc
        show 1 ≤ c ∧ c ≤ s.created + 1
        rcases List.mem_append.mp hc with hc | hc
        · have hold := h.connections c hc
          omega
        · rw [List.mem_singleton.mp hc]
          omega
      · intro c hc
        have hold := h.accepted c hc
        show 1 ≤ c ∧ c ≤ s.created + 1
        omega
      · show (s.connections ++ [s.created + 1]).Nodup
        rw [List.nodup_append]
        refine ⟨h.nodup, List.nodup_cons.mpr ⟨List.not_mem_nil, List.nodup_nil⟩, ?_⟩
        intro c hc c' hc' heq
        have hold := h.connections c hc
        rw [List.mem_singleton] at hc'
        omega
  | accept c =>
      simp only [step, Option.bind_eq_bind, Option.bind_eq_some_iff] at hstep
      obtain ⟨_, hguard, hs⟩ := hstep
      cases hs
      have hc := PartialRun.of_guard_eq_some hguard
      constructor
      · exact h.connections
      · intro c' hc'
        rcases List.mem_cons.mp hc' with rfl | hc'
        · exact ⟨hc.1, hc.2.1⟩
        · exact h.accepted c' hc'
      · exact h.nodup
  | release c =>
      cases hstep
      constructor
      · exact fun c' hc' => h.connections c' (List.mem_of_mem_erase hc')
      · exact h.accepted
      · exact h.nodup.erase c
  | closeAll =>
      cases hstep
      exact ⟨fun c hc => (List.not_mem_nil hc).elim, h.accepted, List.nodup_nil⟩

theorem numbered_run {events : List ConnectionEvent} {s : ConnectionManager}
    (h : PartialRun.run step events {} = some s) : s.Numbered :=
  PartialRun.run_preserves (fun _ _ _ hs hstep => step_numbered hs hstep) events {} s
    ⟨fun _ hc => (List.not_mem_nil hc).elim, fun _ hc => (List.not_mem_nil hc).elim,
      List.nodup_nil⟩ h

/-- Before the generator passes the last `int`, every client is found. -/
theorem routed_of_few {events : List ConnectionEvent} {s : ConnectionManager}
    (h : PartialRun.run step events {} = some s) (hfew : s.created < 2 ^ 31) {c : Nat}
    (hc : c ∈ s.accepted) : s.Routed c := by
  have hnumbered := numbered_run h
  have hbound := hnumbered.accepted c hc
  by_cases hconnected : c ∈ s.connections
  · rw [routed_connected_iff hc hconnected, Direct, if_pos hconnected]
    constructor
    · omega
    · intro d hd hsame
      have hd' := hnumbered.connections d hd
      omega
  · rw [routed_released_iff hconnected, Direct, if_neg hconnected]
    refine ⟨by omega, fun d hd haccepted => ?_⟩
    have hd' := hnumbered.connections d hd
    constructor
    · intro hsame
      have heq : d = c := by omega
      exact hconnected (heq ▸ hd)
    · omega

/-! ## After `2 ^ 32` clients -/

theorem run_replicate_create (n : Nat) (s : ConnectionManager) :
    PartialRun.run step (List.replicate n .create) s =
      some { s with
        created := s.created + n
        connections := s.connections ++ List.range' (s.created + 1) n } := by
  induction n generalizing s with
  | zero => simp [PartialRun.run]
  | succ n ih =>
      show (step .create s).bind (PartialRun.run step (List.replicate n .create)) = _
      rw [step, Option.bind_some, ih]
      simp [List.range'_succ, Nat.add_comm, Nat.add_left_comm]

/-- The number of a client leads to another one that is connected. -/
theorem number_of_another_client :
    ∃ s, PartialRun.run step
        (List.replicate (2 ^ 32 + 1) .create ++ [.accept 1, .accept (2 ^ 32 + 1)]) {} = some s ∧
      luaLoginGetClient s s.connections (luaProtocolGetId (some (2 ^ 32 + 1))) =
        some (some 1) ∧
      ¬ s.Routed (2 ^ 32 + 1) := by
  let s : ConnectionManager := ⟨2 ^ 32 + 1, List.range' 1 (2 ^ 32 + 1), [2 ^ 32 + 1, 1]⟩
  have hrun : PartialRun.run step
      (List.replicate (2 ^ 32 + 1) .create ++ [.accept 1, .accept (2 ^ 32 + 1)]) {} = some s := by
    rw [PartialRun.run_append, run_replicate_create, Option.bind_some]
    rfl
  have hfound : luaLoginGetClient s s.connections (luaProtocolGetId (some (2 ^ 32 + 1))) =
      some (some 1) := by
    have hid : (getId (some (2 ^ 32 + 1))).toNat = 1 := toNat_getId_some _
    have hfirst : s.connections.find? (fun c => connectionId c = UInt64.ofNat 1) = some 1 :=
      List.find?_cons_of_pos (by decide)
    have hprotocol : s.protocol 1 = some 1 := protocol_eq_some_iff.mpr ⟨by simp [s], rfl⟩
    rw [luaLoginGetClient, luaProtocolGetId, popUInt64_pushUInt32, hid, if_pos (by decide),
      Option.map_some, getProtocolById, UnorderedScan.scan, hfirst, Option.bind_some, hprotocol]
  refine ⟨s, hrun, hfound, fun h => ?_⟩
  have hrouted := h s.connections (List.Perm.refl _) _ (Or.inl rfl)
  rw [hfound] at hrouted
  split at hrouted
  · have hprotocol : s.protocol (2 ^ 32 + 1) = some (2 ^ 32 + 1) :=
      protocol_eq_some_iff.mpr ⟨List.mem_cons_self, rfl⟩
    rw [hprotocol] at hrouted
    simp at hrouted
  · cases hrouted

end ConnectionManager

end LoginServer.Network
