import LoginServer.Network.Watchdog

/-!
# The accept loop

`Server::accept` registers a connection before anybody has connected, and
`Server::onAccept` hands it on and accepts the next one.  Both happen in the
branch without an error; a connection whose accept has failed is neither
released nor followed by another.

A client is named by how many were created before it.

## Main results

* `Released.step` — what `close` has run on is not registered.
* `Accepting.step_iff` — which completions keep the server accepting.
* `keeps_accepting_iff` — the runs of a server that is open.
-/

namespace LoginServer.Core

open LoginServer.Verified
open LoginServer.Verified.ByteMemory
open LoginServer.Network
open Connection (OutputInv SameOutput)

/-! ## The server -/

/-- A connection of the server, and whether `Connection::accept` has run. -/
structure Client where
  connection : Connection
  accepted : Bool := false

/-- The clients in the order of their numbers; those with `registered` are
`m_connections`. -/
structure Server where
  clients : List Client := []
  /-- the clients that the outstanding `async_accept`s are for -/
  pending : List Nat := []
  /-- `Server::close` has been called -/
  closed : Bool := false

namespace Server

/-- `createConnection`; nothing is written to the buffer. -/
def createConnection (s : Server) (memory : Memory) : Server :=
  { s with
    clients :=
      s.clients ++ [{ connection := { msg := { buffer := memory }, socketOpen := false } }] }

/-- `Server::accept`; the acceptor is there from `open` on. -/
def accept (s : Server) (memory : Memory) : Server :=
  { s.createConnection memory with pending := s.pending ++ [s.clients.length] }

/-- What `onAccept` does to the connection whose socket is open now. -/
def handOver (ip : UInt32) (throws : Bool) (client : Client) : Client :=
  let connection := { client.connection with socketOpen := true }
  if ip ≠ 0 then { connection := connection.armHeaderRead throws, accepted := true }
  else { client with connection := connection.close }

/-- `Server::onAccept`; an address that cannot be read is zero. -/
def onAccept (s : Server) (n : Nat) (error : Bool) (ip : UInt32) (throws : Bool)
    (memory : Memory) : Server :=
  if error then s
  else { s with clients := s.clients.modify n (handOver ip throws) }.accept memory

/-- `Server::open`, up to `io_context.run()`. -/
def opened (memory : Memory) : Server := ({} : Server).accept memory

inductive Input where
  /-- the `i`-th outstanding accept completes -/
  | accepted (i : Nat) (ip : UInt32) (throws : Bool) (memory : Memory)
  | acceptFailed (i : Nat)
  | client (n : Nat) (input : Connection.Input)
  /-- `Server::close` -/
  | close
  /-- `ConnectionManager::closeAll` -/
  | closeAll

/-- After `Server::close` only the other thread still comes to a connection. -/
def Allowed (closed : Bool) : Connection.Input → Bool
  | .send .. => true
  | .close => true
  | .keptMessage _ => true
  | .socketClosed => false
  | _ => !closed

def closeAllSockets (client : Client) : Client :=
  if client.connection.registered then
    { client with
      connection := { client.connection with socketOpen := false, registered := false } }
  else client

/-- One event; none follows an exception that has left `io_context.run()`. -/
def step (env : Env) (input : Input) (s : Server) : Option Server :=
  if s.clients.any (fun client => client.connection.escaped.isSome) then none
  else
    match input with
    | .accepted i ip throws memory => do
        guard (s.closed = false)
        let n ← s.pending[i]?
        some ({ s with pending := s.pending.eraseIdx i }.onAccept n false ip throws memory)
    | .acceptFailed i => do
        guard (s.closed = false)
        let n ← s.pending[i]?
        some ({ s with pending := s.pending.eraseIdx i }.onAccept n true 0 false fun _ => 0)
    | .client n input => do
        let client ← s.clients[n]?
        guard (client.accepted = true ∧ Allowed s.closed input = true)
        let connection ← client.connection.step env input
        some { s with clients := s.clients.set n { client with connection } }
    | .close => some { s with closed := true }
    | .closeAll => do
        guard (s.closed = true)
        some { s with clients := s.clients.map closeAllSockets }

/-- Everything an event can do to the server. -/
inductive Effect (env : Env) (s : Server) : Input → Server → Prop where
  | accepted {i n : Nat} (ip : UInt32) (throws : Bool) (memory : Memory) :
      s.closed = false → s.pending[i]? = some n →
      Effect env s (.accepted i ip throws memory)
        (({ s with
            pending := s.pending.eraseIdx i
            clients := s.clients.modify n (handOver ip throws) } : Server).accept memory)
  | acceptFailed {i n : Nat} : s.closed = false → s.pending[i]? = some n →
      Effect env s (.acceptFailed i) { s with pending := s.pending.eraseIdx i }
  | client {n : Nat} {input : Connection.Input} {client : Client} {connection : Connection} :
      s.clients[n]? = some client → client.accepted = true →
      client.connection.step env input = some connection →
      Effect env s (.client n input)
        { s with clients := s.clients.set n { client with connection } }
  | close : Effect env s .close { s with closed := true }
  | closeAll : s.closed = true →
      Effect env s .closeAll { s with clients := s.clients.map closeAllSockets }

theorem effect_of_step {env : Env} {input : Input} {s s' : Server}
    (h : step env input s = some s') : Effect env s input s' := by
  unfold step at h
  split at h
  · cases h
  cases input with
  | accepted i ip throws memory =>
      simp only [Option.bind_eq_bind, Option.bind_eq_some_iff] at h
      obtain ⟨_, hguard, n, hn, h⟩ := h
      cases h
      exact .accepted ip throws memory (PartialRun.of_guard_eq_some hguard) hn
  | acceptFailed i =>
      simp only [Option.bind_eq_bind, Option.bind_eq_some_iff] at h
      obtain ⟨_, hguard, n, hn, h⟩ := h
      cases h
      exact .acceptFailed (PartialRun.of_guard_eq_some hguard) hn
  | client n input =>
      simp only [Option.bind_eq_bind, Option.bind_eq_some_iff] at h
      obtain ⟨client, hclient, _, hguard, connection, hconnection, h⟩ := h
      cases h
      exact .client hclient (PartialRun.of_guard_eq_some hguard).1 hconnection
  | close =>
      cases h
      exact .close
  | closeAll =>
      simp only [Option.bind_eq_bind, Option.bind_eq_some_iff] at h
      obtain ⟨_, hguard, h⟩ := h
      cases h
      exact .closeAll (PartialRun.of_guard_eq_some hguard)

/-- The state after a list of events. -/
abbrev run (env : Env) (inputs : List Input) (s : Server) : Option Server :=
  PartialRun.run (step env) inputs s

end Server

/-! ## Closed connections are released -/

/-- `close` releases the connection whenever it runs. -/
def Released (c : Connection) : Prop := c.closed = true → c.registered = false

theorem released_close (c : Connection) : Released c.close := by
  intro _
  unfold Connection.close Connection.closeSocket
  dsimp only
  split
  · rfl
  · split <;> rfl

theorem Released.of_sameOutput {c c' : Connection} (h : Released c) (hs : SameOutput c c') :
    Released c' := by
  unfold Released
  rw [hs.closed, hs.registered]
  exact h

theorem Released.send {c : Connection} (h : Released c) (msg : OutputMessage)
    (throws : Bool) : Released (c.send msg throws) := by
  unfold Connection.send
  split
  · exact released_close c
  · exact h

theorem outputInv_released : OutputInv Released where
  same := Released.of_sameOutput
  close := fun c _ => released_close c
  send := fun _ msg throws h => h.send msg throws

theorem Released.step {env : Env} {input : Connection.Input} {c c' : Connection}
    (h : Released c) (hstep : c.step env input = some c') : Released c' := by
  cases Connection.effect_of_step hstep with
  | readDone turn =>
      apply outputInv_released.readHandler
      exact h.of_sameOutput ⟨rfl, rfl, rfl, rfl, rfl⟩
  | readFailed turn =>
      apply outputInv_released.readHandler
      exact h.of_sameOutput ⟨rfl, rfl, rfl, rfl, rfl⟩
  | readTimerExpires => exact h
  | writeTimerExpires => exact h
  | readTimeout => exact released_close _
  | writeTimeout => exact released_close _
  | written => exact h
  | writeFailed => exact released_close _
  | sent msg throws => exact h.send msg throws
  | closed => exact released_close c
  | socketClosed => exact fun _ => rfl
  | keptMessage => exact h

theorem Released.handOver {client : Client} (h : Released client.connection) (ip : UInt32)
    (throws : Bool) : Released (Server.handOver ip throws client).connection := by
  unfold Server.handOver
  dsimp only
  split
  · apply outputInv_released.armHeaderRead
    exact h
  · exact released_close _

namespace Server

/-! ## The clients after an event -/

theorem getElem?_accept {s : Server} {memory : Memory} {m : Nat} {client : Client}
    (h : (s.accept memory).clients[m]? = some client) :
    s.clients[m]? = some client ∨
      (m = s.clients.length ∧
        client = { connection := { msg := { buffer := memory }, socketOpen := false } }) := by
  have hclients : (s.accept memory).clients = s.clients ++
      [{ connection := { msg := { buffer := memory }, socketOpen := false } }] := rfl
  rw [hclients, List.getElem?_append] at h
  split at h
  · exact Or.inl h
  · rename_i hm
    obtain ⟨hlt, heq⟩ := List.getElem?_eq_some_iff.mp h
    have hlength : m - s.clients.length < 1 := hlt
    refine Or.inr ⟨by omega, ?_⟩
    rw [← heq]
    simp

theorem getElem?_handOver {s : Server} {ip : UInt32} {throws : Bool} {n m : Nat}
    {client : Client} (h : (s.clients.modify n (handOver ip throws))[m]? = some client) :
    ∃ old, s.clients[m]? = some old ∧
      ((n = m ∧ client = handOver ip throws old) ∨ (n ≠ m ∧ client = old)) := by
  rw [List.getElem?_modify] at h
  obtain ⟨old, hold, rfl⟩ := Option.map_eq_some_iff.mp h
  refine ⟨old, hold, ?_⟩
  by_cases hnm : n = m
  · simp [hnm]
  · simp [hnm]

theorem getElem?_client {s : Server} {n m : Nat} {client new : Client}
    (h : (s.clients.set n new)[m]? = some client) :
    (n = m ∧ client = new) ∨ (n ≠ m ∧ s.clients[m]? = some client) := by
  by_cases hnm : n = m
  · subst hnm
    obtain ⟨hlt, heq⟩ := List.getElem?_eq_some_iff.mp h
    rw [List.getElem_set_self] at heq
    exact Or.inl ⟨rfl, heq.symm⟩
  · rw [List.getElem?_set_ne hnm] at h
    exact Or.inr ⟨hnm, h⟩

/-- No client is held after its connection has been closed. -/
def AllReleased (s : Server) : Prop :=
  ∀ (n : Nat) (client : Client), s.clients[n]? = some client → Released client.connection

theorem AllReleased.accept {s : Server} (h : s.AllReleased) (memory : Memory) :
    (s.accept memory).AllReleased := by
  intro m client hclient
  rcases getElem?_accept hclient with hold | ⟨-, rfl⟩
  · exact h m client hold
  · intro hclosed
    cases hclosed

theorem AllReleased.step {env : Env} {input : Input} {s s' : Server} (h : s.AllReleased)
    (hstep : step env input s = some s') : s'.AllReleased := by
  cases effect_of_step hstep with
  | accepted ip throws memory =>
      apply AllReleased.accept
      intro m client hclient
      obtain ⟨old, hold, ⟨-, rfl⟩ | ⟨-, rfl⟩⟩ := getElem?_handOver hclient
      · exact (h m old hold).handOver ip throws
      · exact h m client hold
  | acceptFailed => exact h
  | client hclient haccepted hconnection =>
      intro m client hm
      obtain ⟨-, rfl⟩ | ⟨-, hold⟩ := getElem?_client hm
      · exact (h _ _ hclient).step hconnection
      · exact h m client hold
  | close => exact h
  | closeAll =>
      intro m client hm
      rw [List.getElem?_map] at hm
      obtain ⟨old, hold, rfl⟩ := Option.map_eq_some_iff.mp hm
      unfold closeAllSockets
      split
      · exact fun _ => rfl
      · exact h m old hold

/-! ## Accepting -/

/-- While the server is open, one accept is pending, and a connection that is
held belongs to it or was accepted and is not closed. -/
def Accepting (s : Server) : Prop :=
  s.closed = false →
    s.pending.length = 1 ∧
      ∀ (n : Nat) (client : Client), s.clients[n]? = some client →
        client.connection.registered = true →
        n ∈ s.pending ∨ (client.accepted = true ∧ client.connection.closed = false)

/-- The only accept has completed. -/
theorem Accepting.eraseIdx_pending {s : Server} (h : s.Accepting) (hopen : s.closed = false)
    {i n : Nat} (hn : s.pending[i]? = some n) :
    s.pending.eraseIdx i = [] ∧ s.pending = [n] := by
  obtain ⟨m, hm⟩ := List.length_eq_one_iff.mp (h hopen).1
  rw [hm] at hn ⊢
  cases i with
  | zero => exact ⟨rfl, congrArg (fun k => [k]) (Option.some.inj hn)⟩
  | succ i => cases hn

/-- What is held after `onAccept` is open. -/
theorem handOver_registered {client : Client} (h : Released client.connection) {ip : UInt32}
    {throws : Bool} (hregistered : (handOver ip throws client).connection.registered = true) :
    (handOver ip throws client).accepted = true ∧
      (handOver ip throws client).connection.closed = false := by
  have hreleased := h.handOver ip throws
  have hopen : (handOver ip throws client).connection.closed = false := by
    rw [← Bool.not_eq_true]
    intro hclosed
    rw [hreleased hclosed] at hregistered
    cases hregistered
  refine ⟨?_, hopen⟩
  unfold handOver at hopen ⊢
  dsimp only at hopen ⊢
  split at hopen
  · rename_i hip
    rw [if_pos hip]
  · rw [Connection.close_closed] at hopen
    cases hopen

theorem Accepting.accepted {s : Server} (h : s.Accepting) (hreleased : s.AllReleased)
    (hopen : s.closed = false) {i n : Nat} (hn : s.pending[i]? = some n) (ip : UInt32)
    (throws : Bool) (memory : Memory) :
    (({ s with
        pending := s.pending.eraseIdx i
        clients := s.clients.modify n (handOver ip throws) } : Server).accept
      memory).Accepting := by
  obtain ⟨hempty, hpending⟩ := h.eraseIdx_pending hopen hn
  have hnext : (s.pending.eraseIdx i ++ [(s.clients.modify n (handOver ip throws)).length]) =
      [s.clients.length] := by
    rw [hempty, List.length_modify, List.nil_append]
  intro _
  show (s.pending.eraseIdx i ++ _).length = 1 ∧ _
  refine ⟨by rw [hnext]; rfl, ?_⟩
  intro m client hm hregistered
  show m ∈ s.pending.eraseIdx i ++ _ ∨ _
  rw [hnext]
  rcases getElem?_accept hm with hmodified | ⟨hlast, -⟩
  · right
    obtain ⟨old, hold, ⟨-, rfl⟩ | ⟨hne, rfl⟩⟩ := getElem?_handOver hmodified
    · exact handOver_registered (hreleased m old hold) hregistered
    · -- it is not the pending one, so it had been accepted before
      rcases (h hopen).2 m client hold hregistered with hmem | haccepted
      · rw [hpending, List.mem_singleton] at hmem
        exact absurd hmem.symm hne
      · exact haccepted
  · left
    rw [hlast, List.length_modify]
    exact List.mem_singleton_self _

theorem Accepting.client {s : Server} (h : s.Accepting) {n : Nat} {client : Client}
    {connection : Connection}
    (haccepted : client.accepted = true) (hconnection : Released connection) :
    ({ s with clients := s.clients.set n { client with connection } } : Server).Accepting := by
  intro hopen
  refine ⟨(h hopen).1, ?_⟩
  intro m client' hm hregistered
  obtain ⟨-, rfl⟩ | ⟨-, hold⟩ := getElem?_client hm
  · right
    refine ⟨haccepted, ?_⟩
    rw [← Bool.not_eq_true]
    intro hclosed
    rw [hconnection hclosed] at hregistered
    cases hregistered
  · exact (h hopen).2 m client' hold hregistered

/-- The event is no failed accept. -/
def Input.Completes : Input → Prop
  | .acceptFailed _ => False
  | _ => True

instance : DecidablePred Input.Completes := fun input =>
  match input with
  | .acceptFailed _ => .isFalse id
  | .accepted .. => .isTrue trivial
  | .client .. => .isTrue trivial
  | .close => .isTrue trivial
  | .closeAll => .isTrue trivial

/-- Only a failed accept ends the loop. -/
theorem Accepting.step_iff {env : Env} {input : Input} {s s' : Server} (h : s.Accepting)
    (hreleased : s.AllReleased) (hstep : step env input s = some s') :
    s'.Accepting ↔ input.Completes := by
  cases effect_of_step hstep with
  | accepted ip throws memory hopen hn =>
      exact iff_of_true (h.accepted hreleased hopen hn ip throws memory) trivial
  | acceptFailed hopen hn =>
      apply iff_of_false _ id
      intro haccepting
      have hone := (haccepting hopen).1
      dsimp only at hone
      rw [(h.eraseIdx_pending hopen hn).1] at hone
      cases hone
  | client hclient haccepted hconnection =>
      have hnew := (hreleased _ _ hclient).step hconnection
      exact iff_of_true (h.client haccepted hnew) trivial
  | close => exact iff_of_true (fun hopen => nomatch hopen) trivial
  | closeAll hclosed =>
      refine iff_of_true (fun hopen => ?_) trivial
      rw [hclosed] at hopen
      cases hopen

theorem accepting_open (memory : Memory) : (opened memory).Accepting := by
  intro _
  refine ⟨rfl, ?_⟩
  intro n client hn _
  rcases getElem?_accept hn with hold | ⟨rfl, -⟩
  · cases hold
  · exact Or.inl (List.mem_singleton_self 0)

theorem allReleased_open (memory : Memory) : (opened memory).AllReleased := by
  apply AllReleased.accept
  intro n client hn
  cases hn

/-- The server keeps accepting, and holds no other connections, in every state
before `Server::close` if and only if no accept completes with an error. -/
theorem keeps_accepting_iff (env : Env) (memory : Memory) (inputs : List Input) (s : Server)
    (h : run env inputs (opened memory) = some s) :
    PartialRun.Throughout (step env) Accepting inputs (opened memory) ↔
      ∀ input ∈ inputs, input.Completes := by
  have hiff : ∀ (input : Input) (t t' : Server), t.AllReleased → t.Accepting →
      step env input t = some t' → t'.AllReleased ∧ (t'.Accepting ↔ input.Completes) :=
    fun _ _ _ hreleased haccepting hstep =>
      ⟨hreleased.step hstep, haccepting.step_iff hreleased hstep⟩
  rw [PartialRun.throughout_iff_obeys hiff inputs _ s (allReleased_open memory)
    (accepting_open memory) h]
  exact PartialRun.obeys_iff_forall_mem h

/-- A client that comes and goes. -/
theorem keeps_accepting_sample :
    ∃ s, run sampleEnv
        [.accepted 0 16777343 false (fun _ => 0), .accepted 0 0 false (fun _ => 0),
          .client 0 (.readFailed 0 [] {}), .close, .closeAll]
        (opened fun _ => 0) = some s ∧
      PartialRun.Throughout (step sampleEnv) Accepting
        [.accepted 0 16777343 false (fun _ => 0), .accepted 0 0 false (fun _ => 0),
          .client 0 (.readFailed 0 [] {}), .close, .closeAll]
        (opened fun _ => 0) := by
  have hmap : (run sampleEnv
      [.accepted 0 16777343 false (fun _ => 0), .accepted 0 0 false (fun _ => 0),
        .client 0 (.readFailed 0 [] {}), .close, .closeAll]
      (opened fun _ => 0)).map (fun s => s.closed) = some true := by
    decide +kernel
  obtain ⟨s, hrun, -⟩ := Option.map_eq_some_iff.mp hmap
  refine ⟨s, hrun, (keeps_accepting_iff _ _ _ s hrun).mpr ?_⟩
  simp [Input.Completes]

/-- After an accept has failed, nobody is waited for, and the connection made
for it is still held. -/
theorem failed_accept_stops :
    ∃ s, run sampleEnv [.acceptFailed 0] (opened fun _ => 0) = some s ∧
      s.closed = false ∧ s.pending = [] ∧
      (s.clients.map fun client => (client.connection.registered, client.accepted)) =
        [(true, false)] ∧
      ¬ s.Accepting := by
  have hmap : (run sampleEnv [.acceptFailed 0] (opened fun _ => 0)).map
      (fun s => (s.closed, s.pending,
        s.clients.map fun client => (client.connection.registered, client.accepted))) =
      some (false, [], [(true, false)]) := by
    decide +kernel
  obtain ⟨s, hrun, heq⟩ := Option.map_eq_some_iff.mp hmap
  simp only [Prod.mk.injEq] at heq
  refine ⟨s, hrun, heq.1, heq.2.1, heq.2.2, fun haccepting => ?_⟩
  have hone := (haccepting heq.1).1
  rw [heq.2.1] at hone
  cases hone

end Server

end LoginServer.Core
